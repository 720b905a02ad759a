import Mathlib.Data.List.Sort
import Nctuns.Lib.Run

/-!
# Route discovery of a DSR agent

`sendbuffer.h`, the part of `requesttable.h` about initiated route requests, and the two functions of
`dsragent.cc` that send route requests and wait for the answers: packets without a route stay in the
send buffer, and `IF_timer` expires when the next route request may be sent.

The simulation ends long before `2 ^ 64` ticks, so times are natural numbers. A difference
`rreq_timeout.top() - GetCurrentTime()` below zero does wrap; the timer then stops the program, as its
expiry would be in the past.
-/

namespace Dsr

/-- The address of no node. -/
abbrev IP_invalid_addr : UInt32 := 0

/-- The nodes of the longest route. -/
abbrev MAX_ROUTE_LEN : UInt8 := 15

/-- The packets that may wait. -/
abbrev SEND_BUFFER_SIZE : Nat := 10

/-- `RequestPeriod`, `MaxRequestPeriod` and `SendBufferTimeout` in ticks. -/
structure Periods where
  period : Nat
  maxPeriod : Nat
  timeout : Nat
  period_pos : 0 < period
  maxPeriod_pos : 0 < maxPeriod

/-- The assertions that can fail. -/
inductive Halt where
  /-- `GetCurrentTime() == rreq_timeout.top()` -/
  | topNotNow
  /-- `rreq_timeout.top() - GetCurrentTime() != 0` -/
  | topNow
  /-- `send_buffer.empty()` -/
  | bufferNotEmpty
  /-- `buffer.size() == SEND_BUFFER_SIZE` -/
  | bufferSize
  /-- `rreq_timeout.top()` of an empty queue -/
  | noTop
  | startWraps
  | diverges
  deriving DecidableEq, Repr

/-! ## The send buffer -/

/-- The packet itself does not matter. -/
structure SendBufferEntry where
  timestamp : Nat
  dst : UInt32
  deriving DecidableEq, Repr

namespace SendBuffer

/-- `SendBuffer::refresh`. -/
def refresh (timeout now : Nat) (buffer : List SendBufferEntry) : List SendBufferEntry :=
  buffer.dropWhile fun e => decide (now - e.timestamp > timeout)

/-- `SendBuffer::push_back`. -/
def push_back (timeout now : Nat) (buffer : List SendBufferEntry) (dst : UInt32) :
    Except Halt (List SendBufferEntry) :=
  let buffer := refresh timeout now buffer ++ [⟨now, dst⟩]
  if buffer.length > SEND_BUFFER_SIZE then
    if buffer.tail.length = SEND_BUFFER_SIZE then .ok buffer.tail else .error .bufferSize
  else .ok buffer

/-- `SendBuffer::find`: whether there is a packet, and the buffer without it. -/
def find (timeout now : Nat) (buffer : List SendBufferEntry) (dst : UInt32) :
    Bool × List SendBufferEntry :=
  let buffer := refresh timeout now buffer
  (buffer.any fun e => e.dst = dst, buffer.eraseP fun e => e.dst = dst)

end SendBuffer

/-! ## The request table -/

/-- What is known of the requests of a node. -/
structure RequestTableEntry where
  ip_addr : UInt32
  ip_ttl : UInt8
  timestamp : Nat
  retry_count : UInt8
  remain_time : Nat
  request_number : UInt16
  deriving DecidableEq, Repr

namespace RequestTable

/-- A write to the entry that `find` finds. -/
def update (node : UInt32) (f : RequestTableEntry → RequestTableEntry) :
    List RequestTableEntry → List RequestTableEntry
  | [] => []
  | e :: es => if e.ip_addr = node then f e :: es else e :: update node f es

variable (table : List RequestTableEntry)

/-- `RequestTable::find`. -/
def find (node : UInt32) : Option RequestTableEntry := table.find? fun e => e.ip_addr = node

/-- `RequestTable::notifyRouteReply`. -/
def notifyRouteReply (dst : UInt32) : List RequestTableEntry :=
  update dst (fun e => { e with ip_ttl := 0, timestamp := 0, retry_count := 0, remain_time := 0 }) table

/-- `RequestTable::whichNodeAllowed`. -/
def whichNodeAllowed (now : Nat) : UInt32 :=
  match table.find? fun e => e.ip_ttl ≠ 0 ∧ now ≥ e.timestamp + e.remain_time with
  | some e => e.ip_addr
  | none => IP_invalid_addr

/-- `RequestTable::nextAllowedTime`. -/
def nextAllowedTime (dst : UInt32) : Nat :=
  match find table dst with
  | some e => e.timestamp + e.remain_time
  | none => 0

/-- The entry of a node to which another route request is sent. -/
def initiated (p : Periods) (now : Nat) (ttl : UInt8) (e : RequestTableEntry) : RequestTableEntry :=
  let retry_count := e.retry_count + 1
  let remain_time := if retry_count = 1 then p.period else e.remain_time * 2
  { e with
    ip_ttl := ttl
    timestamp := now
    retry_count := retry_count
    remain_time := if remain_time > p.maxPeriod then p.maxPeriod else remain_time }

/-- `RequestTable::notifyRequestInitiate`. -/
def notifyRequestInitiate (p : Periods) (now : Nat) (dst : UInt32) (ttl : UInt8) :
    Nat × List RequestTableEntry :=
  match find table dst with
  | some e =>
    ((initiated p now ttl e).timestamp + (initiated p now ttl e).remain_time,
      update dst (initiated p now ttl) table)
  | none => (now + p.period, table ++ [⟨dst, ttl, now, 1, p.period, 0⟩])

/-- `RequestTable::insert`. -/
def insert (req_num : UInt16) (node : UInt32) : List RequestTableEntry :=
  match find table node with
  | some _ => update node (fun e => { e with request_number := req_num }) table
  | none => table ++ [⟨node, 0, 0, 0, 0, req_num⟩]

end RequestTable

/-! ## The agent -/

/-- `DSRAgent`. `rreq_timeout` is sorted, and `IF_timer` is the time at which the timer expires, if it
    runs. -/
structure DSRAgent where
  now : Nat
  request_table : List RequestTableEntry
  send_buffer : List SendBufferEntry
  rreq_timeout : List Nat
  IF_timer : Option Nat
  deriving DecidableEq, Repr

namespace DSRAgent

/-- Nothing waits. -/
def init : DSRAgent := ⟨0, [], [], [], none⟩

/-- `IF_timer.start( rreq_timeout.top() - GetCurrentTime(), 0 )`. -/
def startTimer (s : DSRAgent) (top : Nat) : Except Halt DSRAgent :=
  if top < s.now then .error .startWraps else .ok { s with IF_timer := some top }

/-- `getRouteForPacket` once the packet is in the send buffer. -/
def requestRoute (p : Periods) (checkSendBuffer : DSRAgent → Except Halt DSRAgent) (s : DSRAgent)
    (dst : UInt32) : Except Halt DSRAgent :=
  if s.now < RequestTable.nextAllowedTime s.request_table dst then .ok s
  else
    let r := RequestTable.notifyRequestInitiate s.request_table p s.now dst MAX_ROUTE_LEN
    let s := { s with
      request_table := r.2
      rreq_timeout := s.rreq_timeout.orderedInsert (· ≤ ·) r.1
      send_buffer := SendBuffer.refresh p.timeout s.now s.send_buffer }
    if s.send_buffer ≠ [] then
      match s.rreq_timeout with
      | [] => .error .noTop
      | top :: _ =>
        if top = s.now then checkSendBuffer { s with IF_timer := none }
        else s.startTimer top
    else .ok s

/-- `DSRAgent::checkSendBuffer`, which calls itself through `getRouteForPacket`. -/
def checkSendBuffer (p : Periods) : Nat → DSRAgent → Except Halt DSRAgent
  | 0, _ => .error .diverges
  | n + 1, s =>
    match s.rreq_timeout with
    | [] => .error .noTop
    | top :: rest =>
      if s.now ≠ top then .error .topNotNow
      else
        let s := { s with rreq_timeout := rest }
        let node := RequestTable.whichNodeAllowed s.request_table s.now
        if node ≠ IP_invalid_addr then requestRoute p (checkSendBuffer p n) s node
        else
          match rest with
          | top :: _ =>
            let s := { s with send_buffer := SendBuffer.refresh p.timeout s.now s.send_buffer }
            if s.send_buffer ≠ [] then
              if top = s.now then .error .topNow else s.startTimer top
            else .ok s
          | [] =>
            let s := { s with send_buffer := SendBuffer.refresh p.timeout s.now s.send_buffer }
            if s.send_buffer = [] then .ok s else .error .bufferNotEmpty

/-- Each round takes one timeout of the present time. -/
def runCheckSendBuffer (p : Periods) (s : DSRAgent) : Except Halt DSRAgent :=
  s.checkSendBuffer p (s.rreq_timeout.length + 1)

/-- `DSRAgent::getRouteForPacket` with a packet. -/
def getRouteForPacket (p : Periods) (s : DSRAgent) (dst : UInt32) : Except Halt DSRAgent :=
  match SendBuffer.push_back p.timeout s.now s.send_buffer dst with
  | .error e => .error e
  | .ok buffer => requestRoute p (runCheckSendBuffer p) { s with send_buffer := buffer } dst

/-- The loop of `handlePacketReceipt` that sends the packets for which there is a route now. -/
def sendFound (p : Periods) (dst : UInt32) : Nat → DSRAgent → Except Halt DSRAgent
  | 0, _ => .error .diverges
  | n + 1, s =>
    let r := SendBuffer.find p.timeout s.now s.send_buffer dst
    let s := { s with send_buffer := r.2 }
    if r.1 then sendFound p dst n s else .ok s

/-- `handlePacketReceipt` of a route reply, whose route ends at `dst`. -/
def handleRouteReply (p : Periods) (s : DSRAgent) (dst : UInt32) : Except Halt DSRAgent :=
  let s := { s with request_table := RequestTable.notifyRouteReply s.request_table dst }
  s.sendFound p dst (s.send_buffer.length + 1)

end DSRAgent

/-- What happens to an agent. -/
inductive AgentAction where
  /-- A packet for `dst`, to which the route cache has no route. -/
  | packet (dst : UInt32)
  | routeReply (dst : UInt32)
  /-- A route request of another node. -/
  | routeRequest (sequence_num : UInt16) (src : UInt32)
  /-- Time passes, but not beyond the expiry of the timer. -/
  | elapse (ticks : Nat)
  | expire
  deriving DecidableEq, Repr

namespace DSRAgent

/-- One action of the agent. -/
def step (p : Periods) (s : DSRAgent) : AgentAction → Except Halt DSRAgent
  | .packet dst => s.getRouteForPacket p dst
  | .routeReply dst => s.handleRouteReply p dst
  | .routeRequest sequence_num src =>
    .ok { s with request_table := RequestTable.insert s.request_table sequence_num src }
  | .elapse ticks =>
    match s.IF_timer with
    | none => .ok { s with now := s.now + ticks }
    | some expiry => .ok { s with now := max s.now (min (s.now + ticks) expiry) }
  | .expire =>
    match s.IF_timer with
    | none => .ok s
    | some expiry => { s with now := max s.now expiry, IF_timer := none }.runCheckSendBuffer p

/-- While packets wait, the timer expires at the first of the timeouts, which is not over. -/
def Waits (s : DSRAgent) : Prop :=
  s.send_buffer ≠ [] → ∃ top, s.rreq_timeout.head? = some top ∧ s.IF_timer = some top ∧ s.now ≤ top

/-- A packet that comes when the timer does not run makes a route request, and no timeout is over. -/
def Arms (s : DSRAgent) : AgentAction → Prop
  | .packet dst => s.IF_timer = none →
      RequestTable.nextAllowedTime s.request_table dst ≤ s.now ∧ ∀ t ∈ s.rreq_timeout, s.now ≤ t
  | _ => True

instance Arms.decidable (s : DSRAgent) : (a : AgentAction) → Decidable (s.Arms a)
  | .packet dst => inferInstanceAs (Decidable (s.IF_timer = none →
      RequestTable.nextAllowedTime s.request_table dst ≤ s.now ∧ ∀ t ∈ s.rreq_timeout, s.now ≤ t))
  | .routeReply _ => .isTrue trivial
  | .routeRequest .. => .isTrue trivial
  | .elapse _ => .isTrue trivial
  | .expire => .isTrue trivial

end DSRAgent

end Dsr
