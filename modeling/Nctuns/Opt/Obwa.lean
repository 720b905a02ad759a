import Nctuns.Opt.Obsw

/-!
# Burst assembly at an edge node

`obwa.cc`: packets with the same next hop wait in a buffer until a timer runs out or the buffer is large
enough. Then a control packet announces them as a burst and takes a wavelength of an output port. The
burst leaves after an offset, and the wavelength is given back when it has been transmitted. Transmission
times, which the node computes from the bandwidth in floating point, are functions of a length and a
wavelength; the clock and the sequence numbers do not wrap. `add_new_list` is called when there is no
buffer for a next hop, so the list of buffers is a map.
-/

namespace Opt

/-- Conversion to `int`. -/
def i32 (z : Int) : Int := Int.bmod z (2 ^ 32)

/-- A path that `readpath` has read. -/
structure Pathlist where
  Start_Node : Nat
  End_Node : Nat
  wave : Int
  to_port : Int
  path_length : Int
  deriving DecidableEq, Repr

/-- The configuration of a node. A threshold for a length in bytes counts in whole bytes. -/
structure Obwa.Config where
  nid : Nat
  HeadList_head : List Pathlist
  ipv4addr_to_nodeid : Nat → Nat
  Process_time : Nat
  Timeout : Nat
  Send_packet_length : Int
  Drop_packet_length : Int
  MAX_WAVE : Int
  choose_wave : Int
  Calculate_trans_time : Int → Int → Nat
  Calculate_Propdelay_time : Int → Int → Nat

/-- `sizeof(struct lheader)`. -/
def LHEADER : Nat := 12

/-- A packet and `pkt_getlen`. -/
structure Obwa.Pkt where
  id : Nat
  len : Nat
  deriving DecidableEq, Repr

/-- A reservation: the wavelength given out, the one before, the port and the number of the control
    packet. -/
structure Obwa.Wave_assign_table where
  wave : Int
  oldwave : Int
  output_port : Int
  SeqID : Nat
  deriving DecidableEq, Repr

/-- The buffer for a next hop. `AssembleTimer_active_seq` is zero while its timer is stopped. -/
structure Obwa.Buffer_list where
  entity_num : Int
  AssembleTimer_active_seq : Nat
  packet_length : Int
  pkts : List Obwa.Pkt
  deriving DecidableEq, Repr

/-- No step reads the `seq` of `release_wave`, the burst that it belongs to. -/
inductive Obwa.Event where
  | send_control_packet (next AssembleTimer_seqnum : Nat)
  | release_buffer (sequencenum next : Nat) (sendlength wave : Int)
  | release_wave (wave output_port : Int) (seq : Nat)
  deriving DecidableEq, Repr

/-- What a control packet says. -/
structure Obwa.Control where
  dstIP : Nat
  SEQ : Nat
  OLDW : Int
  r_dur : Int
  WAVE : Int
  OFFS : Int
  deriving DecidableEq, Repr

/-- A packet that `Schedule_send` will send at `time`. -/
structure Obwa.Scheduled where
  time : Nat
  dstIP : Nat
  wave : Nat
  OLDW : Int
  SEQ : Nat
  pkt : Obwa.Pkt
  deriving DecidableEq, Repr

/-- The node, and a record of what has been done: the packets given to `send`, the control packets sent,
    the packets scheduled and freed, and the bursts whose wavelength has been given back. -/
structure Obwa where
  now : Nat
  WAT : List Obwa.Wave_assign_table
  Send_seq : Nat
  AssembleTimer_seqnum : Nat
  Buffer : Nat → Option Obwa.Buffer_list
  events : List (Nat × Obwa.Event)
  given : List (Nat × Obwa.Pkt)
  controls : List Obwa.Control
  scheduled : List Obwa.Scheduled
  freed : List (Nat × Obwa.Pkt)
  released : List Nat

/-- `assert(wat_ptr)` fails. -/
inductive Obwa.Fault where
  | assertion
  deriving DecidableEq, Repr

namespace Obwa

/-- Nothing given, nothing waiting. -/
def init : Obwa where
  now := 0
  WAT := []
  Send_seq := 0
  AssembleTimer_seqnum := 0
  Buffer := fun _ => none
  events := []
  given := []
  controls := []
  scheduled := []
  freed := []
  released := []

/-! ## Paths -/

namespace Config

variable (c : Config) (next : Nat)

/-- The entry of the path list from this node to `next`. -/
def path : Option Pathlist :=
  c.HeadList_head.find? fun p => p.Start_Node = c.nid ∧ p.End_Node = c.ipv4addr_to_nodeid next

/-- The wavelength of the path, -1 without a path. -/
def RWA_get_wave : Int :=
  match c.path next with
  | some p => p.wave
  | none => -1

/-- The port of the path, -1 without a path. -/
def RWA_get_outputport : Int :=
  match c.path next with
  | some p => p.to_port
  | none => -1

/-- The hops of the path, -1 without a path. -/
def GetPath_Length : Int :=
  match c.path next with
  | some p => p.path_length
  | none => -1

/-- The wavelength of bursts: the configured one or that of the path. -/
def wave : Int := if c.choose_wave > 0 then c.choose_wave else c.RWA_get_wave next

end Config

/-! ## The table of wavelengths -/

/-- A reservation is put behind the first one, and what was there is lost. -/
def addto_WA_table (w : Wave_assign_table) : List Wave_assign_table → List Wave_assign_table
  | [] => [w]
  | wat :: _ => [wat, w]

/-- The earlier wavelength of a reservation, 0 without a reservation. -/
def Get_oldwave_by_seq (s : Obwa) (seq : Nat) : Int :=
  match s.WAT.find? fun w => w.SeqID = seq with
  | some w => w.oldwave
  | none => 0

/-- The reservation of a wavelength is given back: the first entry is looked at by its wavelength only.
    -/
def release_wave (s : Obwa) (wave oport : Int) (seq : Nat) : Except Fault Obwa :=
  match s.WAT with
  | [] => .error .assertion
  | wat :: WAT => .ok { s with
    WAT := if wat.wave = wave then WAT
      else wat :: WAT.eraseP fun w => w.wave = wave ∧ w.output_port = oport
    released := s.released ++ [seq] }

/-- The reservation of a control packet is given back. -/
def delwave_byseq (s : Obwa) (seq : Nat) : Except Fault Obwa :=
  match s.WAT with
  | [] => .error .assertion
  | wat :: WAT => .ok { s with
    WAT := if wat.SeqID = seq then WAT else wat :: WAT.eraseP fun w => w.SeqID = seq
    released := s.released ++ [seq] }

variable (c : Config)

/-- The wavelength is one of the node's, and no reservation has it on the port. -/
def Is_avail_wave (s : Obwa) (wave output_port : Int) : Prop :=
  (∀ w ∈ s.WAT, ¬ (w.wave = wave ∧ w.output_port = output_port)) ∧ ¬ wave > c.MAX_WAVE

instance (s : Obwa) (wave output_port : Int) : Decidable (s.Is_avail_wave c wave output_port) :=
  inferInstanceAs (Decidable (_ ∧ _))

/-! ## Buffers -/

/-- Writes the buffer of a next hop. -/
def put (s : Obwa) (goal : Nat) (ptr : Option Buffer_list) : Obwa :=
  { s with Buffer := Function.update s.Buffer goal ptr }

/-- Writes `AssembleTimer_active_seq`. -/
def setActive (s : Obwa) (goal seq : Nat) : Obwa :=
  s.put goal ((s.Buffer goal).map fun ptr => { ptr with AssembleTimer_active_seq := seq })

/-- The assembly timer of the destination is running. -/
def Is_AssembleTimer_running_goallist (s : Obwa) (goal : Nat) : Prop :=
  ∃ ptr ∈ s.Buffer goal, ptr.AssembleTimer_active_seq ≠ 0

/-- The event is the one that the assembly timer of the destination waits for. -/
def Is_Active_AssembleTimer_event (s : Obwa) (goal seq : Nat) : Prop :=
  ∃ ptr ∈ s.Buffer goal, ptr.AssembleTimer_active_seq = seq

instance (s : Obwa) (goal : Nat) : Decidable (s.Is_AssembleTimer_running_goallist goal) :=
  inferInstanceAs (Decidable (∃ ptr ∈ s.Buffer goal, ptr.AssembleTimer_active_seq ≠ 0))

instance (s : Obwa) (goal seq : Nat) : Decidable (s.Is_Active_AssembleTimer_event goal seq) :=
  inferInstanceAs (Decidable (∃ ptr ∈ s.Buffer goal, ptr.AssembleTimer_active_seq = seq))

/-- The assembly timer of the destination is started under a new number. -/
def Set_AssembleTimer_run_goallist (s : Obwa) (goal : Nat) : Obwa :=
  let seq := s.AssembleTimer_seqnum + 1
  { s.setActive goal seq with
    AssembleTimer_seqnum := seq
    events := s.events ++ [(s.now + c.Timeout, .send_control_packet goal seq)] }

/-- The assembly timer of the destination is stopped: its event will find another number. -/
def Set_AssembleTimer_stop_goallist (s : Obwa) (goal : Nat) : Obwa := s.setActive goal 0

/-- An empty assembly buffer. -/
def add_new_list : Buffer_list where
  entity_num := 0
  AssembleTimer_active_seq := 0
  packet_length := 0
  pkts := []

/-- A packet joins the assembly buffer. -/
def addto_list (pkt : Pkt) (ptr : Buffer_list) : Buffer_list :=
  { ptr with pkts := ptr.pkts ++ [pkt], entity_num := ptr.entity_num + 1 }

/-- The assembly buffer is freed with its packets. -/
def delete_buffer (s : Obwa) (goal : Nat) : Obwa :=
  match s.Buffer goal with
  | none => s
  | some ptr => { s.put goal none with freed := s.freed ++ ptr.pkts.map fun p => (goal, p) }

/-! ## Control packets -/

/-- `send_control_packet` behind `Set_AssembleTimer_stop_goallist`. -/
def announce (s : Obwa) (next : Nat) : Obwa :=
  match s.Buffer next with
  | none => s
  | some ptr =>
    let wave := c.wave next
    let output_port := c.RWA_get_outputport next
    if ¬ s.Is_avail_wave c wave output_port then s
    else if ptr.packet_length = 0 then s
    else if wave ≤ 0 then s.delete_buffer next
    else
      let sendseq := s.Send_seq
      let s := { s with
        Send_seq := sendseq + 1
        WAT := addto_WA_table { wave, oldwave := c.RWA_get_wave next, output_port, SeqID := sendseq }
          s.WAT }
      let PathDistance := c.GetPath_Length next
      if PathDistance < 0 then s
      else
        let processTick := c.Calculate_trans_time LHEADER wave
        let StoreOffset := i32 (PathDistance * (c.Process_time + processTick))
        { s with
          controls := s.controls ++ [{
            dstIP := next
            SEQ := sendseq
            OLDW := c.RWA_get_wave next
            r_dur := ptr.packet_length
            WAVE := wave
            OFFS := StoreOffset }]
          events := s.events ++
            [(s.now + u64 StoreOffset, .release_buffer sendseq next ptr.packet_length wave)] }

/-- An assembly event that is still the active one announces the burst. -/
def send_control_packet (s : Obwa) (next sequencenum : Nat) : Obwa :=
  if ¬ s.Is_Active_AssembleTimer_event next sequencenum then s
  else (s.Set_AssembleTimer_stop_goallist next).announce c next

/-- The buffer of `next` with one more packet. -/
def added (s : Obwa) (pkt : Pkt) (next : Nat) : Buffer_list :=
  let ptr := addto_list pkt ((s.Buffer next).getD add_new_list)
  { ptr with packet_length := i32 (ptr.packet_length + pkt.len) }

/-- A packet joins the buffer of its destination; a full one is announced at once, or dropped. -/
def putinto_buffer (s : Obwa) (pkt : Pkt) (next : Nat) : Obwa :=
  let ptr := s.added pkt next
  let s := s.put next (some ptr)
  if ptr.packet_length > c.Send_packet_length then
    let s := s.Set_AssembleTimer_stop_goallist next
    let seq := s.AssembleTimer_seqnum + 1
    { s with AssembleTimer_seqnum := seq }.setActive next seq |>.send_control_packet c next seq
  else if ptr.packet_length > c.Drop_packet_length then s.delete_buffer next
  else s

/-- `pkt_malloc` of the `lheader`. -/
def Pkt.headed (pkt : Pkt) : Pkt := { pkt with len := pkt.len + LHEADER }

/-- A packet from above, with the header that is put in front of it. -/
def send (s : Obwa) (pkt : Pkt) (next : Nat) : Obwa :=
  let pkt := pkt.headed
  let s := { s with given := s.given ++ [(next, pkt)] }
  if s.Is_AssembleTimer_running_goallist next then s.putinto_buffer c pkt next
  else (s.putinto_buffer c pkt next).Set_AssembleTimer_run_goallist c next

/-! ## Bursts -/

/-- What the loop of `release_buffer` has counted and scheduled, the packets left, and whether the loop
    has stopped before the end of the list. -/
structure Sending where
  send_count : Int
  send_packet_num : Nat
  scheduled : List Scheduled
  temp : List Pkt
  stopped : Bool

/-- One round of the loop, for the packet `p` in front of `temp`. -/
def sendOne (s : Obwa) (sequencenum goal : Nat) (send_wave : Int) (done : Sending) (p : Pkt)
    (temp : List Pkt) : Sending where
  send_count := done.send_count + p.len
  send_packet_num := done.send_packet_num + 1
  scheduled := done.scheduled ++ [{
    time := s.now + done.send_packet_num + c.Calculate_trans_time done.send_count send_wave
    dstIP := goal
    wave := u8 send_wave
    OLDW := s.Get_oldwave_by_seq sequencenum
    SEQ := sequencenum
    pkt := p }]
  temp := temp
  stopped := false

/-- The loop that sends the packets of an announced burst, up to its length. -/
def sendLoop (s : Obwa) (sequencenum goal : Nat) (send_length send_wave : Int) :
    Sending → List Pkt → Sending
  | done, [] => done
  | done, p :: temp =>
    let done := s.sendOne c sequencenum goal send_wave done p temp
    if done.send_count ≥ send_length then { done with stopped := true }
    else s.sendLoop sequencenum goal send_length send_wave done temp

/-- `entity_num` behind the loop. The last entity of a list that runs out is not counted, unless it is the
    first one. -/
def entitiesLeft (entity_num : Int) (done : Sending) : Int :=
  if done.stopped then entity_num - done.send_packet_num
  else if done.send_packet_num ≤ 1 then entity_num - 1
  else entity_num - (done.send_packet_num - 1 : Nat)

/-- The buffer behind the loop. -/
def Buffer_list.left (ptr : Buffer_list) (done : Sending) : Buffer_list where
  entity_num := entitiesLeft ptr.entity_num done
  AssembleTimer_active_seq := ptr.AssembleTimer_active_seq
  packet_length := if done.temp = [] then 0 else i32 (ptr.packet_length - done.send_count)
  pkts := done.temp

/-- A buffer that is not empty behind the loop gets a timer. -/
def rearm (s : Obwa) (goal : Nat) (temp : List Pkt) : Obwa :=
  if temp = [] ∨ s.Is_AssembleTimer_running_goallist goal then s
  else s.Set_AssembleTimer_run_goallist c goal

/-- The wavelength is to be given back when the burst has left. -/
def Send_release_wave_Event (s : Obwa) (wave output_port : Int) (delayTick seq : Nat) : Obwa :=
  { s with events := s.events ++ [(s.now + delayTick, .release_wave wave output_port seq)] }

/-- The burst of a control packet is sent. -/
def release_buffer (s : Obwa) (sequencenum goal : Nat) (send_length send_wave : Int) :
    Except Fault Obwa :=
  match s.Buffer goal with
  | none => s.delwave_byseq sequencenum
  | some ptr =>
    if ptr.pkts ≠ [] ∧ u8 send_wave ≤ 0 then
      .ok { s with freed := s.freed ++ (ptr.pkts.take 1).map fun p => (goal, p) }
    else
      let done := s.sendLoop c sequencenum goal send_length send_wave ⟨0, 0, [], ptr.pkts, false⟩ ptr.pkts
      let s := { s.put goal (some (ptr.left done)) with scheduled := s.scheduled ++ done.scheduled }
      let delayTick := c.Calculate_Propdelay_time send_length send_wave +
        c.Calculate_trans_time send_length send_wave + done.send_packet_num
      .ok ((s.rearm c goal done.temp).Send_release_wave_Event send_wave (c.RWA_get_outputport goal)
        delayTick sequencenum)

/-! ## Runs -/

/-- What happens. Time goes on to `now`, but not past an event. -/
inductive Action where
  | send (pkt : Pkt) (next : Nat)
  | pass (now : Nat)
  | fire (i : Nat)
  deriving DecidableEq, Repr

/-- The handler of an event. -/
def handle (s : Obwa) : Event → Except Fault Obwa
  | .send_control_packet next seq => .ok (s.send_control_packet c next seq)
  | .release_buffer sequencenum next sendlength wave =>
    s.release_buffer c sequencenum next sendlength wave
  | .release_wave wave output_port seq => s.release_wave wave output_port seq

/-- A packet from above, time passing, or an event that is due. -/
def step (s : Obwa) : Action → Except Fault Obwa
  | .send pkt next => .ok (s.send c pkt next)
  | .pass now => .ok (if s.now ≤ now ∧ ∀ e ∈ s.events, now ≤ e.1 then { s with now := now } else s)
  | .fire i =>
    match s.events[i]? with
    | none => .ok s
    | some (time, event) =>
      if time = s.now then { s with events := s.events.eraseIdx i }.handle c event else .ok s

/-- The event that an action makes happen has the property. -/
def Fires (s : Obwa) (P : Event → Prop) (i : Nat) : Prop :=
  ∀ e ∈ s.events[i]?, e.1 = s.now → P e.2

instance (s : Obwa) (P : Event → Prop) [DecidablePred P] (i : Nat) : Decidable (s.Fires P i) :=
  inferInstanceAs (Decidable (∀ e ∈ s.events[i]?, e.1 = s.now → P e.2))

/-! ## Wavelengths -/

/-- The bursts that have been announced and whose wavelength has not been given back. -/
def inFlight (s : Obwa) : List Control := s.controls.filter fun k => k.SEQ ∉ s.released

/-- The entry of a burst. -/
def Control.entry (k : Control) : Wave_assign_table where
  wave := k.WAVE
  oldwave := k.OLDW
  output_port := c.RWA_get_outputport k.dstIP
  SeqID := k.SEQ

/-- The bursts use the same wavelength of the same port. -/
def Clash (k l : Control) : Prop :=
  k.WAVE = l.WAVE ∧ c.RWA_get_outputport k.dstIP = c.RWA_get_outputport l.dstIP

/-- No two bursts in flight use the same wavelength of a port, and the table has one entry for each. -/
structure TableExact (s : Obwa) : Prop where
  exclusive : s.inFlight.Pairwise fun k l => ¬ Clash c k l
  table : s.WAT = s.inFlight.map (Control.entry c)

/-- A step takes the entries of the bursts that it has released out of the table, puts those of the bursts
    that it has announced behind the others, and does nothing else to it. -/
def TableFollows (s s' : Obwa) : Prop :=
  s'.WAT = (s.WAT.filter fun w => w.SeqID ∉ s'.released) ++
    (s'.controls.drop s.controls.length).map (Control.entry c)

/-- A wavelength is taken for a burst to `next`. -/
def Takes (s : Obwa) (next : Nat) : Prop :=
  s.Is_avail_wave c (c.wave next) (c.RWA_get_outputport next) ∧ 0 < c.wave next

/-- Nothing is behind the first entry of the table, and the next hop has a path. -/
def Room (s : Obwa) (next : Nat) : Prop := s.WAT.length ≤ 1 ∧ 0 ≤ c.GetPath_Length next

/-- The buffer of `next` is announced when the timer event with `seq` happens. -/
def Due (s : Obwa) (next seq : Nat) : Prop :=
  ∃ ptr ∈ s.Buffer next, ptr.AssembleTimer_active_seq = seq ∧ ptr.packet_length ≠ 0

/-- The buffer of `next` is announced when the packet is put into it. -/
def Overflows (s : Obwa) (pkt : Pkt) (next : Nat) : Prop :=
  (s.added pkt.headed next).packet_length > c.Send_packet_length ∧
    (s.added pkt.headed next).packet_length ≠ 0

/-- The event does not lose an entry: a new one has room, and the first entry has the port when it has the
    wavelength that is given back. -/
def EventTableSafe (s : Obwa) : Event → Prop
  | .send_control_packet next seq => s.Due next seq → s.Takes c next → s.Room c next
  | .release_buffer .. => True
  | .release_wave wave oport _ => ∀ w ∈ s.WAT.head?, w.wave = wave → w.output_port = oport

/-- Where the action needs a reservation, the table has room for it. -/
def TableSafe (s : Obwa) : Action → Prop
  | .send pkt next => s.Overflows c pkt next → s.Takes c next → s.Room c next
  | .pass _ => True
  | .fire i => s.Fires (s.EventTableSafe c) i

instance (s : Obwa) (next seq : Nat) : Decidable (s.Due next seq) :=
  inferInstanceAs (Decidable (∃ ptr ∈ s.Buffer next,
    ptr.AssembleTimer_active_seq = seq ∧ ptr.packet_length ≠ 0))

instance (s : Obwa) (next : Nat) : Decidable (s.Takes c next) := inferInstanceAs (Decidable (_ ∧ _))

instance (s : Obwa) (next : Nat) : Decidable (s.Room c next) := inferInstanceAs (Decidable (_ ∧ _))

instance (s : Obwa) (pkt : Pkt) (next : Nat) : Decidable (s.Overflows c pkt next) :=
  inferInstanceAs (Decidable (_ ∧ _))

instance (s : Obwa) : DecidablePred (s.EventTableSafe c)
  | .send_control_packet next seq => inferInstanceAs (Decidable (s.Due next seq → _ → _))
  | .release_buffer .. => .isTrue trivial
  | .release_wave wave oport _ =>
    inferInstanceAs (Decidable (∀ w ∈ s.WAT.head?, w.wave = wave → w.output_port = oport))

instance (s : Obwa) : (a : Action) → Decidable (s.TableSafe c a)
  | .send pkt next => inferInstanceAs (Decidable (s.Overflows c pkt next → _ → _))
  | .pass _ => .isTrue trivial
  | .fire i => inferInstanceAs (Decidable (s.Fires (s.EventTableSafe c) i))

/-! ## Packets -/

/-- The packets for one next hop. -/
def packetsTo (next : Nat) (log : List (Nat × Pkt)) : List Pkt :=
  (log.filter fun x => x.1 = next).map Prod.snd

/-- The packets in the buffer of a destination. -/
def heldFor (s : Obwa) (next : Nat) : List Pkt := ((s.Buffer next).map Buffer_list.pkts).getD []

/-- The packets for a destination that are on their way to the module below. -/
def scheduledTo (s : Obwa) (next : Nat) : List Pkt :=
  packetsTo next (s.scheduled.map fun x => (x.dstIP, x.pkt))

/-- The packets of a burst. -/
def burstOf (s : Obwa) (seq : Nat) : List Pkt := (s.scheduled.filter fun x => x.SEQ = seq).map Scheduled.pkt

/-- The lengths of packets together. -/
def bytes (pkts : List Pkt) : Int := (pkts.map fun p => (p.len : Int)).sum

/-- The events that will happen. -/
def pending (s : Obwa) : List Event := s.events.map Prod.snd

/-- The buffer that the event releases. -/
def Event.goal? : Event → Option Nat
  | .release_buffer _ next _ _ => some next
  | _ => none

/-- The buffers that are about to be released. -/
def releasing (s : Obwa) : List Nat := s.pending.filterMap Event.goal?

/-- An active timer event or a `release_buffer` event is pending for the buffer. -/
def Attended (s : Obwa) (next : Nat) : Prop :=
  (∃ ptr ∈ s.Buffer next, ptr.AssembleTimer_active_seq ≠ 0 ∧
    Event.send_control_packet next ptr.AssembleTimer_active_seq ∈ s.pending) ∨
  next ∈ s.releasing

/-- No packet is lost, doubled or stranded, and each burst is what has been announced. -/
structure Assembled (s : Obwa) : Prop where
  once : ∀ next, (packetsTo next s.given).Perm
    (s.heldFor next ++ (s.scheduledTo next ++ packetsTo next s.freed))
  inOrder : ∀ next, (s.scheduledTo next ++ s.heldFor next).Sublist (packetsTo next s.given)
  ofBurst : ∀ x ∈ s.scheduled, ∃ k ∈ s.controls, k.SEQ = x.SEQ ∧ k.dstIP = x.dstIP
  counted : ∀ next, ∀ ptr ∈ s.Buffer next,
    ptr.packet_length = bytes ptr.pkts ∧ ptr.entity_num = ptr.pkts.length
  announced : ∀ k ∈ s.controls,
    .release_buffer k.SEQ k.dstIP k.r_dur k.WAVE ∈ s.pending ∨ bytes (s.burstOf k.SEQ) = k.r_dur
  attended : ∀ next, s.heldFor next ≠ [] → s.Attended next

/-- A buffer that is to be announced is announced, and no release of it is pending; or it is not, and its
    release is pending or it gets a timer `again`. -/
def Announces (s : Obwa) (next : Nat) (again : Prop) : Prop :=
  if s.Is_avail_wave c (c.wave next) (c.RWA_get_outputport next) then
    0 < c.wave next →
      if 0 ≤ c.GetPath_Length next then next ∉ s.releasing ∧ u8 (c.wave next) ≠ 0 else again
  else next ∈ s.releasing ∨ again

/-- A buffer keeps its length in 31 bits and is not deleted while its release is pending, and
    announcements go through. -/
def SendKeeps (s : Obwa) (pkt : Pkt) (next : Nat) : Prop :=
  bytes (s.heldFor next) + pkt.headed.len < 2 ^ 31 ∧
    if (s.added pkt.headed next).packet_length > c.Send_packet_length then
      s.Announces c next ¬ s.Is_AssembleTimer_running_goallist next
    else (s.added pkt.headed next).packet_length > c.Drop_packet_length → next ∉ s.releasing

/-- An event does not leave packets in a buffer without a timer. -/
def EventKeeps (s : Obwa) : Event → Prop
  | .send_control_packet next seq => s.Due next seq → s.Announces c next False
  | _ => True

/-- An action does not leave packets in a buffer without a timer. -/
def Keeps (s : Obwa) : Action → Prop
  | .send pkt next => s.SendKeeps c pkt next
  | .pass _ => True
  | .fire i => s.Fires (s.EventKeeps c) i

instance (s : Obwa) (next : Nat) (again : Prop) [Decidable again] : Decidable (s.Announces c next again) :=
  inferInstanceAs (Decidable (
    if s.Is_avail_wave c (c.wave next) (c.RWA_get_outputport next) then
      0 < c.wave next →
        if 0 ≤ c.GetPath_Length next then next ∉ s.releasing ∧ u8 (c.wave next) ≠ 0 else again
    else next ∈ s.releasing ∨ again))

instance (s : Obwa) (pkt : Pkt) (next : Nat) : Decidable (s.SendKeeps c pkt next) :=
  inferInstanceAs (Decidable (bytes (s.heldFor next) + pkt.headed.len < 2 ^ 31 ∧
    if (s.added pkt.headed next).packet_length > c.Send_packet_length then
      s.Announces c next ¬ s.Is_AssembleTimer_running_goallist next
    else (s.added pkt.headed next).packet_length > c.Drop_packet_length → next ∉ s.releasing))

instance (s : Obwa) : DecidablePred (s.EventKeeps c)
  | .send_control_packet next seq => inferInstanceAs (Decidable (s.Due next seq → s.Announces c next _))
  | .release_buffer .. => .isTrue trivial
  | .release_wave .. => .isTrue trivial

instance (s : Obwa) : (a : Action) → Decidable (s.Keeps c a)
  | .send pkt next => inferInstanceAs (Decidable (s.SendKeeps c pkt next))
  | .pass _ => .isTrue trivial
  | .fire i => inferInstanceAs (Decidable (s.Fires (s.EventKeeps c) i))

end Obwa

end Opt
