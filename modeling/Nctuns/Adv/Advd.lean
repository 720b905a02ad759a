import Nctuns.Adv.RtTable
import Nctuns.Lib.Run
import Nctuns.Lib.WaitingRoom

/-!
# The ADV daemon

`ADVd` of `advd.cc`: packets for which there is no route wait in the control table until an update or
an alert brings one. An event carries the time and, as a function of the number of packets handed down so
far, the queue length of the module below. What a timer starts is an event that may come at any time.
-/

namespace Adv

/-! ## Packets -/

/-- A data packet; `gw` is what `rt_setgw` left in it. -/
structure Packet where
  id : ℕ
  ip_dst : Addr
  ip_ttl : ℕ
  gw : Option Addr
  deriving DecidableEq, Repr

/-- An entry of an update. -/
structure update_entry where
  Dst_IP : Addr
  Nexthop_IP : Addr
  Metric : Int
  seqNum : Int
  seqSignHost : Addr
  Is_receiver : Bool
  Exp_response : Int
  deriving DecidableEq, Repr

/-- The expected response: none. -/
def EXP_ZERO : Int := 0
/-- The expected response: low. -/
def EXP_LOW : Int := 1
/-- The expected response: medium. -/
def EXP_MEDIUM : Int := 2
/-- The expected response: high. -/
def EXP_HIGH : Int := 3

/-- `wanted` and `b_id` are the destination and the broadcast id of the control entry in it. -/
structure init_conn where
  wanted : Addr
  b_id : Int
  sIP : Addr
  sMetric : Int
  sSeqNum : Int
  sSeqSignHost : Addr
  lasthost : Addr
  deriving DecidableEq, Repr

/-- The answer of a receiver. -/
structure recv_alert where
  replier : Addr
  metric : Int
  seqNum : Int
  seqSignHost : Addr
  lasthost : Addr
  deriving DecidableEq, Repr

/-- What the daemon sends; an update announces a number of entries and carries some. -/
inductive Msg where
  | data (p : Packet)
  | PARTIAL_UPDATE (len_ : ℕ) (entries : List update_entry)
  | FULL_UPDATE (len_ : ℕ) (entries : List update_entry)
  | INIT_CONNECTION (c : init_conn)
  | RECV_ALERT (a : recv_alert)
  deriving DecidableEq, Repr

/-- The data packet of a message, if it is one. -/
def Msg.packet : Msg → Option Packet
  | .data p => some p
  | _ => none

/-! ## The control table -/

/-- What waits for a destination, and the last number of a search for it. -/
structure ctrl_entry where
  Dst_IP : Addr
  b_id : Int
  buffer_list : List Packet
  deriving DecidableEq, Repr

/-- The destinations that are searched for. -/
structure ctrlTable where
  rows : List ctrl_entry
  deriving DecidableEq, Repr

namespace ctrlTable

variable (t : ctrlTable)

/-- The place of a destination in the table. -/
def ifExist (in_Dst_IP : Addr) : Option ℕ := t.rows.findIdx? fun e => e.Dst_IP = in_Dst_IP

/-- A destination joins the table, with nothing waiting for it. -/
def addEntry (in_Dst_IP : Addr) (in_b_id : Int) : ctrlTable := ⟨t.rows ++ [⟨in_Dst_IP, in_b_id, []⟩]⟩

/-- `rmEntry`: the last entry takes the place. -/
def rmEntry (in_Dst_IP : Addr) : ctrlTable :=
  match t.ifExist in_Dst_IP with
  | none => t
  | some ctrl_index => ⟨SwapErase.erase t.rows ctrl_index⟩

/-- `attachPKT`, which tells if the entry has reached the threshold. -/
def attachPKT (ctrlThreshold : ℕ) (in_Dst_IP : Addr) (pkt : Packet) : ctrlTable × Bool :=
  match t.ifExist in_Dst_IP with
  | none => (t, false)
  | some ctrl_index =>
    match t.rows[ctrl_index]? with
    | none => (t, false)
    | some e =>
      (⟨t.rows.modify ctrl_index fun e => { e with buffer_list := e.buffer_list ++ [pkt] }⟩,
        decide (ctrlThreshold ≤ e.buffer_list.length + 1))

/-- A destination gets the number of a search. -/
def updateEntry (in_Dst_IP : Addr) (in_b_id : Int) : ctrlTable :=
  match t.ifExist in_Dst_IP with
  | none => t
  | some ctrl_index => ⟨t.rows.modify ctrl_index fun e => { e with b_id := in_b_id }⟩

/-- The number of the search for a destination is counted up. -/
def bidIncre (in_Dst_IP : Addr) : ctrlTable :=
  match t.ifExist in_Dst_IP with
  | none => t
  | some ctrl_index => ⟨t.rows.modify ctrl_index fun e => { e with b_id := e.b_id + 2 }⟩

/-- The first entry for the destination. -/
def entry? (in_Dst_IP : Addr) : Option ctrl_entry := t.rows.find? fun e => e.Dst_IP = in_Dst_IP

/-- The number of the search for a destination, 0 without one. -/
def getBid (in_Dst_IP : Addr) : Int := ((t.entry? in_Dst_IP).map ctrl_entry.b_id).getD 0

/-- Packets wait for the destination. -/
def ifPktBuffered (in_Dst_IP : Addr) : Bool :=
  ((t.entry? in_Dst_IP).map fun e => decide (e.buffer_list ≠ [])).getD false

/-- The table as a waiting room. -/
def room : List (Addr × List Packet) := t.rows.map fun e => (e.Dst_IP, e.buffer_list)

/-- The packets that wait for the destination. -/
def waiting (dst : Addr) : List Packet := WaitingRoom.waiting dst t.room

/-- The packets that wait. -/
def held : List Packet := WaitingRoom.held t.room

end ctrlTable

/-! ## The daemon -/

/-- The constants of a node. -/
structure Config where
  myip : Addr
  TRGMETER_FULL : Int
  TRGMETER_HIGH : Int
  TRGMETER_MED : Int
  TRGMETER_LOW : Int
  MIN_INTERVAL : ℕ
  ctrlThreshold : ℕ
  MAXBUFFEREDPKT : ℕ
  is_ipv4_broadcast : Addr → Bool

/-- What a call reads of the world: the clock, and the length of the queue below. -/
structure Env where
  now : ℕ
  curqlen : ℕ → ℕ

/-- The room of the queue of the node. -/
def qmax_ : ℕ := 30

/-- `rd` is the queue of the daemon, `down`, `up` and `freed` are the packets it let go of, `entered` are
the data packets that came. -/
structure ADVd where
  rt_table : RtTable
  ctrl_table : ctrlTable
  sequence_now : Int
  buf_pkt_cnt : ℕ
  trigger_meter : Int
  trigger_thresh : Int
  num_partial : Int
  sum_TRGMETER : Int
  begin_tick : ℕ
  thre_tick : ℕ
  rd : List Msg
  down : List Msg
  up : List Packet
  freed : List Packet
  entered : List Packet
  deriving DecidableEq, Repr

/-- What the table says about a destination. -/
inductive Routing where
  | REACHABLE
  | NOROUTE
  | INFINITEENTRY
  deriving DecidableEq, Repr

namespace ADVd

variable (cfg : Config) (e : Env) (s : ADVd)

/-- A node that knows itself. -/
def init (now : ℕ) : ADVd where
  rt_table := RtTable.addEntry ⟨[]⟩ cfg.myip cfg.myip (-1) 0 cfg.myip false
  ctrl_table := ⟨[]⟩
  sequence_now := 2
  buf_pkt_cnt := 0
  trigger_meter := 0
  trigger_thresh := cfg.TRGMETER_HIGH
  num_partial := 0
  sum_TRGMETER := 0
  begin_tick := now
  thre_tick := now
  rd := []
  down := []
  up := []
  freed := []
  entered := []

/-! ### The queue -/

/-- A data packet of the message is freed. -/
def freePacket (m : Msg) : ADVd := { s with freed := s.freed ++ m.packet.toList }

/-- A message is sent down, waits, or is freed where the queue is full. -/
def sendToQueue (m : Msg) : ADVd :=
  if e.curqlen s.down.length > 0 then
    if s.rd.length < qmax_ then { s with rd := s.rd ++ [m] } else s.freePacket m
  else { s with down := s.down ++ [m] }

/-- The first message that waits is sent down. -/
def push : ADVd :=
  match s.rd with
  | [] => s
  | m :: rest => { s with rd := rest, down := s.down ++ [m] }

/-! ### Updates -/

/-- The network speed stays `HIGH_SPEED`. -/
def convert (r : rt_entry) : update_entry where
  Dst_IP := r.Dst_IP
  Nexthop_IP := r.Nexthop_IP
  Metric := r.Metric
  seqNum := r.seqNum
  seqSignHost := r.seqSignHost
  Is_receiver := r.Recv_flag
  Exp_response :=
    if s.ctrl_table.ifPktBuffered r.Dst_IP then EXP_HIGH
    else if r.Pkts_handled > 0 then EXP_MEDIUM
    else EXP_ZERO

/-- The entries of an update: the own one with its new sequence number, and the selected ones. -/
def entries (sel : rt_entry → Bool) : List update_entry :=
  match (s.rt_table.setSeqNow s.sequence_now).rows with
  | [] => []
  | own :: rest => (own :: rest.filter sel).map s.convert

/-- The node behind the loop of an update. -/
def sentOut (sel : rt_entry → Bool) : ADVd :=
  { s with
    rt_table := (s.rt_table.setSeqNow s.sequence_now).sentOut sel
    sequence_now := s.sequence_now + 2 }

/-- The entries that have changed are sent to the neighbours. -/
def partialUpdate : ADVd :=
  let sel (r : rt_entry) := r.ifJustUpdated || (r.ifRecvflagOn && decide ¬ r.Valid)
  let msg := Msg.PARTIAL_UPDATE s.rt_table.NumOfPartial (s.entries sel)
  let s := s.sentOut sel
  let s := { s with
    num_partial := s.num_partial + 1
    sum_TRGMETER := s.sum_TRGMETER + s.trigger_meter
    trigger_meter := 0 }
  s.sendToQueue e msg

/-- The threshold for updates follows what the last ones have needed. -/
def compute_thresh : ADVd :=
  let count := s.num_partial
  let sum := s.sum_TRGMETER
  let s := { s with num_partial := 0, sum_TRGMETER := 0 }
  let active := s.rt_table.rows.head?.any rt_entry.ifRecvflagOn ||
    s.rt_table.rows.tail.any fun r => decide (r.Pkts_handled > 0) && r.ifRecvflagOn
  if ¬ active ∨ count = 0 then { s with trigger_thresh := cfg.TRGMETER_HIGH, thre_tick := e.now }
  else
    let max_count : Int := ((e.now - s.thre_tick) / cfg.MIN_INTERVAL : ℕ)
    if count < max_count.tdiv 4 then
      { s with trigger_thresh := s.trigger_thresh.tdiv 2, thre_tick := e.now }
    else
      { s with trigger_thresh := (s.trigger_thresh + sum.tdiv count).tdiv 2, thre_tick := e.now }

/-- The entries with receivers are sent to the neighbours. -/
def fullUpdate : ADVd :=
  let msg := Msg.FULL_UPDATE (s.rt_table.NumOfRecvFlag + 1) (s.entries rt_entry.ifRecvflagOn)
  let s := s.sentOut rt_entry.ifRecvflagOn
  let s := { s with trigger_meter := 0 }
  (s.compute_thresh cfg e).sendToQueue e msg

/-- `checkTrgmeter`; too early after the last update a timer is set, whose expiry is an event. -/
def checkTrgmeter : ADVd :=
  if s.trigger_meter > cfg.TRGMETER_FULL then
    if e.now - s.begin_tick < cfg.MIN_INTERVAL then { s with begin_tick := e.now }
    else { s.fullUpdate cfg e with begin_tick := e.now }
  else if s.trigger_meter > s.trigger_thresh then
    if e.now - s.begin_tick < cfg.MIN_INTERVAL then { s with begin_tick := e.now }
    else { s.partialUpdate e with begin_tick := e.now }
  else s

/-- The meter grows, and may trigger an update. -/
def updateTrgmeter (flag : Int) : ADVd :=
  checkTrgmeter cfg e { s with trigger_meter := s.trigger_meter + flag }

/-- What a neighbour expects is added to the meter. -/
def expected (EXPvalue : Int) : ADVd × Int :=
  if EXPvalue = EXP_HIGH then (s.updateTrgmeter cfg e cfg.TRGMETER_HIGH, 2)
  else if EXPvalue = EXP_MEDIUM then (s.updateTrgmeter cfg e cfg.TRGMETER_MED, 1)
  else if EXPvalue = EXP_LOW then (s.updateTrgmeter cfg e cfg.TRGMETER_LOW, 1)
  else if EXPvalue = EXP_ZERO then (s, 1)
  else (s, -1)

/-! ### Control packets -/

/-- A search for a destination is sent to the neighbours. -/
def floodingInit (in_Dst_IP in_sIP : Addr) (in_sMetric in_sSeqNum : Int) (in_sSeqSignHost : Addr) : ADVd :=
  let s := if (s.ctrl_table.ifExist in_Dst_IP).isSome then s
    else { s with ctrl_table := s.ctrl_table.addEntry in_Dst_IP 0 }
  -- only the source counts the broadcast id up
  let s := if in_sIP = cfg.myip then { s with ctrl_table := s.ctrl_table.bidIncre in_Dst_IP } else s
  s.sendToQueue e (.INIT_CONNECTION {
    wanted := in_Dst_IP
    b_id := s.ctrl_table.getBid in_Dst_IP
    sIP := in_sIP
    sMetric := in_sMetric
    sSeqNum := in_sSeqNum
    sSeqSignHost := in_sSeqSignHost
    lasthost := cfg.myip })

/-- A receiver answers a search. -/
def replyRecvalert (in_Src_IP : Addr) (in_metric in_seqNum : Int) (in_seqSignHost : Addr) : ADVd :=
  s.sendToQueue e (.RECV_ALERT {
    replier := in_Src_IP
    metric := in_metric
    seqNum := in_seqNum
    seqSignHost := in_seqSignHost
    lasthost := cfg.myip })

/-! ### Data packets -/

/-- The packet gets its next hop, if there is one. -/
def routing (in_Dst_IP : Addr) (p : Packet) : ADVd × Packet × Routing :=
  match s.rt_table.ifExist in_Dst_IP with
  | none => (s, p, .NOROUTE)
  | some rt_index =>
    match s.rt_table.rows[rt_index]? with
    | none => (s, p, .NOROUTE)
    | some theEntry =>
      if theEntry.Dst_IP ≠ theEntry.seqSignHost then (s, p, .INFINITEENTRY)
      else
        ({ s with rt_table := s.rt_table.hdledCntIncre rt_index },
          { p with gw := some theEntry.Nexthop_IP }, .REACHABLE)

/-- The packet waits, if one more may: what `send`, `recv` and `adv_hdler` have in common. -/
def buffer (in_Dst_IP : Addr) (p : Packet) : ADVd :=
  if s.buf_pkt_cnt < cfg.MAXBUFFEREDPKT then
    let r := s.ctrl_table.attachPKT cfg.ctrlThreshold in_Dst_IP p
    let s := { s with buf_pkt_cnt := s.buf_pkt_cnt + 1, ctrl_table := r.1 }
    if r.2 then s.updateTrgmeter cfg e cfg.TRGMETER_MED else s
  else (s.freePacket (.data p)).updateTrgmeter cfg e cfg.TRGMETER_MED

/-- An entry of the control table for the destination, if there is none. -/
def withCtrl (in_Dst_IP : Addr) : ADVd :=
  if (s.ctrl_table.ifExist in_Dst_IP).isSome then s
  else { s with ctrl_table := s.ctrl_table.addEntry in_Dst_IP 0 }

/-- One packet of the loop of `processBuffered`. No result of `routing` is negative, so that the packet
is sent without a route too. -/
def sendBuffered (dst : Addr) (p : Packet) : ADVd :=
  let r := s.routing dst p
  let s := r.1.sendToQueue e (.data r.2.1)
  { s with buf_pkt_cnt := s.buf_pkt_cnt - 1 }

/-- The packets that wait for a destination are sent. -/
def processBuffered (wanted_IP : Addr) : ADVd :=
  match s.ctrl_table.entry? wanted_IP with
  | none => s
  | some theEntry => theEntry.buffer_list.foldl (fun s p => s.sendBuffered e theEntry.Dst_IP p) s

/-- An entry for an unknown destination. -/
def addInfinite (in_Dst_IP : Addr) : ADVd :=
  { s with rt_table := s.rt_table.addEntry in_Dst_IP 0 METRIC_INFINITE (-1) 0 true }

/-- A packet from above. -/
def send (p : Packet) : ADVd :=
  let s := { s with rt_table := s.rt_table.setRecvflag cfg.myip true, entered := s.entered ++ [p] }
  if cfg.is_ipv4_broadcast p.ip_dst then s.sendToQueue e (.data p)
  else
    let r := s.routing p.ip_dst p
    match r.2.2 with
    | .NOROUTE =>
      let s := r.1.addInfinite p.ip_dst
      if (s.ctrl_table.ifExist p.ip_dst).isSome then s.buffer cfg e p.ip_dst r.2.1
      else
        let s := (s.withCtrl p.ip_dst).buffer cfg e p.ip_dst r.2.1
        match s.rt_table.rows.head? with
        | none => s
        | some temp => s.floodingInit cfg e p.ip_dst temp.Dst_IP temp.Metric temp.seqNum temp.seqSignHost
    | .INFINITEENTRY => (r.1.withCtrl p.ip_dst).buffer cfg e p.ip_dst r.2.1
    | .REACHABLE => r.1.sendToQueue e (.data r.2.1)

/-- `recv` of a data packet. -/
def recv (p : Packet) : ADVd :=
  let s := { s with entered := s.entered ++ [p] }
  if cfg.myip = p.ip_dst ∨ cfg.is_ipv4_broadcast p.ip_dst then { s with up := s.up ++ [p] }
  else if p.ip_ttl ≤ 1 then { s with up := s.up ++ [p] }
  else
    let r := s.routing p.ip_dst { p with ip_ttl := p.ip_ttl - 1 }
    match r.2.2 with
    | .NOROUTE => r.1.freePacket (.data r.2.1)
    | .INFINITEENTRY => (r.1.withCtrl p.ip_dst).buffer cfg e p.ip_dst r.2.1
    | .REACHABLE => r.1.sendToQueue e (.data r.2.1)

/-- The entry of a destination that cannot be reached is invalidated. Without one an entry outside the
table is read, and `updateEntry` finds nothing to change. -/
def withoutLink (t : RtTable) (in_Dst_IP : Addr) : RtTable :=
  match t.ifExist in_Dst_IP with
  | none => t
  | some rtIndex =>
    match t.rows[rtIndex]? with
    | none => t
    | some myEntry =>
      if t.ifMtrInf rtIndex then t
      else (t.updateEntry in_Dst_IP myEntry.Nexthop_IP METRIC_INFINITE (myEntry.seqNum + 1) cfg.myip
        myEntry.Recv_flag).1

/-- `adv_hdler`, to which the module below gives back a packet. -/
def adv_hdler (p : Packet) : ADVd :=
  let s := { s with
    down := s.down.erase (.data p)
    rt_table := withoutLink cfg s.rt_table p.ip_dst }
  (s.withCtrl p.ip_dst).buffer cfg e p.ip_dst p

/-! ### Routes -/

/-- The repeated fragment: a new entry, or an update of the old one. -/
def learn (in_Dst_IP in_Nexthop_IP : Addr) (in_Metric in_seqNum : Int) (in_seqSignHost : Addr)
    (in_Recv_flag : Bool) : ADVd :=
  if (s.rt_table.ifExist in_Dst_IP).isSome then
    { s with
      rt_table := (s.rt_table.updateEntry in_Dst_IP in_Nexthop_IP in_Metric in_seqNum in_seqSignHost
        in_Recv_flag).1 }
  else
    { s with
      rt_table := s.rt_table.addEntry in_Dst_IP in_Nexthop_IP in_Metric in_seqNum in_seqSignHost
        in_Recv_flag }

/-- One entry of an update from `updateSrcIP`, up to its expected response. -/
def learnUpdate (updateSrcIP : Addr) (u : update_entry) : ADVd :=
  if (s.rt_table.ifExist u.Dst_IP).isSome then
    let r := s.rt_table.updateEntry u.Dst_IP updateSrcIP u.Metric u.seqNum u.seqSignHost u.Is_receiver
    let s := { s with rt_table := r.1 }
    match r.2 with
    | .UPDATE_SUCCESS =>
      if (s.ctrl_table.ifExist u.Dst_IP).isSome then
        let s := s.processBuffered e u.Dst_IP
        { s with ctrl_table := s.ctrl_table.rmEntry u.Dst_IP }
      else s
    | _ => s
  else
    { s with
      rt_table := s.rt_table.addEntry u.Dst_IP updateSrcIP u.Metric u.seqNum u.seqSignHost u.Is_receiver }

/-- One entry of an update. -/
def updateRound (updateSrcIP : Addr) (u : update_entry) : ADVd :=
  let r := (s.learnUpdate e updateSrcIP u).expected cfg e u.Exp_response
  if r.2 = 2 then
    match r.1.rt_table.ifExist u.Dst_IP with
    | none => r.1
    | some RtIndex => { r.1 with rt_table := r.1.rt_table.setJustUpdated RtIndex true }
  else r.1

/-- The entries that `processUpdate` goes through: a sender that is no receiver is left out. -/
def updateEntries : List update_entry → List update_entry
  | [] => []
  | u :: us => if u.Is_receiver then u :: us else us

/-- An update of a neighbour. -/
def processUpdate (us : List update_entry) : ADVd :=
  match us with
  | [] => s
  | u :: _ => (updateEntries us).foldl (fun s v => s.updateRound cfg e u.Dst_IP v) s

/-- The route to the source of a search. -/
def learnSource (c : init_conn) : ADVd :=
  s.learn c.sIP c.lasthost c.sMetric c.sSeqNum c.sSeqSignHost true

/-- The node becomes an active receiver. -/
def becomeReceiver : ADVd :=
  match s.rt_table.rows.head? with
  | none => s
  | some my_rt_entry =>
    if my_rt_entry.Recv_flag then s
    else
      let s := s.replyRecvalert cfg e cfg.myip 0 s.sequence_now cfg.myip
      { s with rt_table := s.rt_table.setRecvflag cfg.myip true }

/-- `LEARNING_IN_INIT` -/
def learningInInit (c : init_conn) : ADVd :=
  let flood (s : ADVd) := s.floodingInit cfg e c.wanted c.sIP (c.sMetric + 1) c.sSeqNum c.sSeqSignHost
  if (s.ctrl_table.ifExist c.wanted).isSome then
    if s.ctrl_table.getBid c.wanted ≥ c.b_id then s
    else flood { s with ctrl_table := s.ctrl_table.updateEntry c.wanted c.b_id }
  else flood { s with ctrl_table := s.ctrl_table.addEntry c.wanted c.b_id }

/-- `processInit` of a packet that wants another node. -/
def initForOther (c : init_conn) : ADVd :=
  let again (s : ADVd) (rt_index : ℕ) : ADVd :=
    ({ s with rt_table := s.rt_table.rmEntry rt_index }.addInfinite c.wanted).learningInInit cfg e c
  match s.rt_table.ifExist c.wanted with
  | some (i + 1) =>
    if s.rt_table.ifMtrInf (i + 1) then again s (i + 1)
    else
      let s := { s with rt_table := s.rt_table.setRecvflag c.wanted true }
      match s.rt_table.rows[i + 1]? with
      | none => s
      | some wantedEntry =>
        -- the reply would go back where the packet came from
        if wantedEntry.Nexthop_IP = c.lasthost then again s (i + 1)
        else
          s.replyRecvalert cfg e c.wanted wantedEntry.Metric wantedEntry.seqNum wantedEntry.seqSignHost
  | _ => (s.addInfinite c.wanted).learningInInit cfg e c

/-- The search is for this node, or for another one. -/
def initWanted (c : init_conn) : ADVd :=
  if c.wanted = cfg.myip then (s.becomeReceiver cfg e).learnSource c else s.initForOther cfg e c

/-- The host the packet came from, which is only added. -/
def learnLasthost (lasthost : Addr) : ADVd :=
  { s with rt_table := s.rt_table.addEntry lasthost lasthost 0 0 lasthost false }

/-- A search arrives. -/
def processInit (c : init_conn) : ADVd :=
  ((s.initWanted cfg e c).learnSource c).learnLasthost c.lasthost

/-- The route to the replier and the packets that wait for it. -/
def alertReplier (a : recv_alert) : ADVd :=
  let s :=
    match s.rt_table.ifExist a.replier with
    | some (_ + 1) =>
      { s with
        rt_table := (s.rt_table.updateEntry a.replier a.lasthost a.metric a.seqNum a.seqSignHost true).1 }
    | _ =>
      { s with
        rt_table := s.rt_table.addEntry a.replier a.lasthost a.metric a.seqNum a.seqSignHost true }
  if (s.ctrl_table.ifExist a.replier).isSome then
    let s := s.processBuffered e a.replier
    let s := s.replyRecvalert cfg e a.replier (a.metric + 1) a.seqNum a.seqSignHost
    { s with ctrl_table := s.ctrl_table.rmEntry a.replier }
  else s

/-- An answer of a receiver arrives. -/
def processAlert (a : recv_alert) : ADVd :=
  (s.alertReplier cfg e a).learn a.lasthost a.lasthost 0 0 a.lasthost false

/-- The broken entries of the table are removed. -/
def refreshRtTable : ADVd := { s with rt_table := s.rt_table.refresh }

/-! ### Runs -/

/-- What a node handles. -/
inductive Event where
  | send (p : Packet)
  | recv (p : Packet)
  | update (us : List update_entry)
  | init (c : init_conn)
  | alert (a : recv_alert)
  | broken (p : Packet)
  | refresh
  | partialUpdate
  | fullUpdate
  | push

/-- The node after an event. -/
def handle : Event → ADVd
  | .send p => s.send cfg e p
  | .recv p => s.recv cfg e p
  | .update us => s.processUpdate cfg e us
  | .init c => s.processInit cfg e c
  | .alert a => s.processAlert cfg e a
  | .broken p => s.adv_hdler cfg e p
  | .refresh => s.refreshRtTable
  | .partialUpdate => s.partialUpdate e
  | .fullUpdate => s.fullUpdate cfg e
  | .push => s.push

/-- The node after an event, in the world as it is then. -/
def step (s : ADVd) (i : Env × Event) : Except Empty ADVd := .ok (s.handle cfg i.1 i.2)

/-- A data packet comes once, and only a packet that was handed down comes back. -/
def Possible (s : ADVd) (i : Env × Event) : Prop :=
  match i.2 with
  | .send p => p.id ∉ s.entered.map Packet.id
  | .recv p => p.id ∉ s.entered.map Packet.id
  | .broken p => Msg.data p ∈ s.down
  | _ => True

/-! ### Fates of the packets -/

/-- The ids of the packets that were sent on, passed up or freed; sent on is what was handed down or is in
the queue. -/
def gone : List ℕ :=
  ((s.down ++ s.rd).filterMap Msg.packet).map Packet.id ++ s.up.map Packet.id ++ s.freed.map Packet.id

/-- Every packet that came has one fate, and the waiting ones are counted. -/
structure Accounted : Prop where
  counted : s.buf_pkt_cnt = s.ctrl_table.held.length
  fates : (s.gone ++ s.ctrl_table.held.map Packet.id).Perm (s.entered.map Packet.id)
  once : (s.entered.map Packet.id).Nodup

/-- Moreover no packet waits beside a route. -/
structure NothingStuck : Prop extends s.Accounted where
  released : ∀ dst, s.rt_table.hasValid dst → s.ctrl_table.waiting dst = []

/-- If `learn` makes the entry valid, no packet waits for the destination. -/
def LearnClear (dst : Addr) (metric seqNum : Int) (signHost : Addr) : Prop :=
  dst = signHost →
  (∀ r, s.rt_table.rows.find? (fun r => r.Dst_IP = dst) = some r →
    r.seqNum < seqNum ∨ (r.seqNum = seqNum ∧ r.Metric > metric + 1)) →
  s.ctrl_table.waiting dst = []

/-- If `addEntry` makes a valid entry, no packet waits for the destination. -/
def AddClear (dst signHost : Addr) : Prop :=
  dst = signHost → s.rt_table.ifExist dst = none → s.ctrl_table.waiting dst = []

/-- Before every entry of an update. -/
def UpdateClear (updateSrcIP : Addr) (us : List update_entry) : Prop :=
  ∀ l v r, us = l ++ v :: r →
    (l.foldl (fun s v => s.updateRound cfg e updateSrcIP v) s).AddClear v.Dst_IP v.seqSignHost

/-- The handler makes no entry valid for whose destination packets wait that it does not send; the
address 0 counts as valid when an entry for an unknown destination is made, and the own one when a packet
comes back. -/
def Clear (s : ADVd) (i : Env × Event) : Prop :=
  match i.2 with
  | .send p => ¬ cfg.is_ipv4_broadcast p.ip_dst → p.ip_dst = 0 → s.rt_table.ifExist 0 = none →
      s.ctrl_table.waiting 0 = [] ∧ cfg.MAXBUFFEREDPKT ≤ s.buf_pkt_cnt
  | .update [] => True
  | .update (u :: us) => s.UpdateClear cfg i.1 u.Dst_IP (updateEntries (u :: us))
  | .init c =>
      (c.wanted ≠ cfg.myip → c.wanted = 0 → s.ctrl_table.waiting 0 = []) ∧
      (c.wanted = cfg.myip →
        (s.becomeReceiver cfg i.1).LearnClear c.sIP c.sMetric c.sSeqNum c.sSeqSignHost) ∧
      (s.initWanted cfg i.1 c).LearnClear c.sIP c.sMetric c.sSeqNum c.sSeqSignHost ∧
      ((s.initWanted cfg i.1 c).learnSource c).AddClear c.lasthost c.lasthost
  | .alert a => (s.alertReplier cfg i.1 a).LearnClear a.lasthost 0 0 a.lasthost
  | .broken p => p.ip_dst = cfg.myip → s.rt_table.hasValid cfg.myip →
      cfg.MAXBUFFEREDPKT ≤ s.buf_pkt_cnt
  | _ => True

end ADVd

end Adv
