import Mathlib
import Nctuns.Lib.Run

/-!
# The optical burst switch

`obsw.cc`: a control packet reserves a wavelength of an output port for the data burst behind it, and
leaves after a processing time. What happens when two bursts contend is a configured drop policy. Times
in ticks, which the switch computes from the bandwidth in floating point, come with the packets; the
clock does not wrap.
-/

namespace Opt

/-- Truncation to `u_int64_t`. -/
@[irreducible] def u64 (z : Int) : Nat := (z % 2 ^ 64).toNat

/-- Truncation to `u_long`, which has 32 bits. -/
def u32 (z : Int) : Nat := (z % 2 ^ 32).toNat

/-- Truncation to `u_int8_t`. -/
def u8 (z : Int) : Nat := (z % 2 ^ 8).toNat

/-- What a record is found by. -/
structure Burst where
  burstid : Int
  src : Nat
  dst : Nat
  nextport : Int
  wavelength : Nat
  deriving DecidableEq, Repr

/-- A reservation. No step reads `asked_start` and `asked_end`, the interval that its control packet
    asked for. -/
structure Datapacket extends Burst where
  node_current_time : Nat
  start_transmit_time : Nat
  end_transmit_time : Nat
  asked_start : Nat
  asked_end : Nat
  deriving DecidableEq, Repr

/-- The time that is reserved. -/
def Datapacket.interval (r : Datapacket) : Set Nat := Set.Ico r.start_transmit_time r.end_transmit_time

/-- The ticks that the control packet asked for. -/
def Datapacket.asked (r : Datapacket) : Set Nat := Set.Ico r.asked_start r.asked_end

/-- The record of a control packet, at the address `id`. -/
structure Controlpkt extends Burst where
  id : Nat
  offset : Nat
  reserve_dur : Nat
  arrive_time : Nat
  have_found : Bool
  update : Bool
  deriving DecidableEq, Repr

/-- `drop_burst_segmentation_method`, from 1 to 3. -/
inductive DropMethod where
  | dropAll
  | headDrop
  | tailDrop
  deriving DecidableEq, Repr

/-- `select_candidate_method`, from 1 to 3. -/
inductive SelectMethod where
  | random
  | minimumOffset
  | maximumOffset
  deriving DecidableEq, Repr

/-- What the switch does later: it sends a control packet on, or frees a reservation. -/
inductive Event where
  | time_to_send_pkt (pkt : Burst)
  | Free_datapacket2 (freedata : Burst)
  deriving DecidableEq, Repr

/-- The switch: its two methods, the reservations and the control packets that wait. -/
structure Obsw where
  now : Nat
  drop_burst_segmentation_method : DropMethod
  select_candidate_method : SelectMethod
  ContrlPktProcessTime : Nat
  datapkts : List Datapacket
  contrlpkts : List Controlpkt
  prev_recv_time : Nat
  updatectl : Option Nat
  allocated : Nat
  events : List (Nat × Event)
  deriving DecidableEq, Repr

/-- `updatectl` points to no record. -/
inductive Fault where
  | dangling
  deriving DecidableEq, Repr

namespace Obsw

/-- Nothing is reserved. -/
def init (drop : DropMethod) (select : SelectMethod) (processTime : Nat) : Obsw where
  now := 0
  drop_burst_segmentation_method := drop
  select_candidate_method := select
  ContrlPktProcessTime := processTime
  datapkts := []
  contrlpkts := []
  prev_recv_time := 0
  updatectl := none
  allocated := 0
  events := []

/-- The first element with `p` is changed. -/
def modifyFirst {α : Type*} (p : α → Bool) (f : α → α) : List α → List α
  | [] => []
  | x :: xs => if p x then f x :: xs else x :: modifyFirst p f xs

/-- A record is cut out of a list, but never the last one. -/
def cutOut {α : Type*} (p : α → Bool) (xs : List α) : List α :=
  if xs.length = 1 then xs else xs.eraseP p

/-! ## Reserving -/

/-- The reservation of a burst gets a new duration. -/
def update_prevOL_datapkt (s : Obsw) (b : Burst) (new_duration : Nat) : Obsw :=
  { s with
    datapkts := modifyFirst (fun r => r.toBurst = b)
      (fun r => { r with end_transmit_time := u64 (r.start_transmit_time + new_duration) }) s.datapkts }

/-- The control packet of a burst gets a new duration. -/
def update_prevOL_contrlpkt (s : Obsw) (b : Burst) (new_duration : Nat) : Obsw :=
  { s with
    contrlpkts := modifyFirst (fun c => c.toBurst = b) (fun c => { c with reserve_dur := new_duration })
      s.contrlpkts }

/-- The record at which the search for an overlap stops. There is no search for a second control packet
    of one tick. -/
def findpkt (s : Obsw) (start_time : Nat) (NextPort WaveLength : Int) : Option Datapacket :=
  if s.now = s.prev_recv_time then none
  else s.datapkts.find? fun r =>
    NextPort = r.nextport ∧ WaveLength = r.wavelength ∧ start_time < r.end_transmit_time

/-- The overlap with the first reservation that is found, by the drop method. -/
def check_if_reserve_time_overlap (s : Obsw) (start_time : Nat) (NextPort WaveLength : Int)
    (contrlWave : Nat) : Obsw × Nat :=
  let found := s.findpkt start_time NextPort WaveLength
  let s := { s with prev_recv_time := s.now }
  match found with
  | none => (s, start_time)
  | some findpkt =>
    match s.drop_burst_segmentation_method with
    | .dropAll => (s, 0)
    | .headDrop => (s, findpkt.end_transmit_time)
    | .tailDrop =>
      let new_tail_duration := u64 (start_time - findpkt.start_transmit_time)
      ((s.update_prevOL_datapkt findpkt.toBurst new_tail_duration).update_prevOL_contrlpkt
        { findpkt.toBurst with wavelength := contrlWave } new_tail_duration, start_time)

/-- `reserve_duration`. -/
def reserve_duration (s : Obsw) (offset : Int) (duration_time : Nat) (burst_id : Int) (src dst : Nat)
    (wave NextPort : Int) (contrlWave : Nat) : Obsw × Nat :=
  let startx_time := u64 (s.now + offset)
  let endx_time := u64 (startx_time + duration_time)
  let (s, start) := s.check_if_reserve_time_overlap startx_time NextPort wave contrlWave
  let (start, new_offset) :=
    match s.drop_burst_segmentation_method with
    | .dropAll =>
      if start = 0 then (u64 (endx_time + 1), u64 (offset + (u64 (endx_time + 1) - startx_time)))
      else (start, 0)
    | .headDrop => (start, if start ≠ startx_time then u64 (offset + (start - startx_time)) else 0)
    | .tailDrop => (start, 0)
  ({ s with
    datapkts := s.datapkts ++ [{
      burstid := burst_id
      src := src
      dst := dst
      nextport := NextPort
      wavelength := u8 wave
      node_current_time := s.now
      start_transmit_time := start
      end_transmit_time := endx_time
      asked_start := startx_time
      asked_end := endx_time }] }, new_offset)

/-- A control packet, found by its own wavelength. `current_offset` is what is left of its offset after
    the time that its transmission has taken. -/
structure Control extends Burst where
  DataWave : Int
  current_offset : Nat
  duration_ : Nat
  deriving DecidableEq, Repr

/-- The offset as an `int`. -/
def Control.offset (c : Control) : Int := Int.bmod c.current_offset (2 ^ 32)

/-- `get` of a control packet, which ends in `send`. -/
def getControl (s : Obsw) (c : Control) : Obsw :=
  let (s, overlap_new_offset) :=
    s.reserve_duration c.offset c.duration_ c.burstid c.src c.dst c.DataWave c.nextport c.wavelength
  let (current_offset, duration_) :=
    if overlap_new_offset ≠ 0 then
      match s.drop_burst_segmentation_method with
      | .dropAll => (u32 overlap_new_offset, c.duration_)
      | .headDrop => (u32 overlap_new_offset, u64 (c.duration_ - (overlap_new_offset - c.current_offset)))
      | .tailDrop => (c.current_offset, c.duration_)
    else (c.current_offset, c.duration_)
  { s with
    contrlpkts := s.contrlpkts ++ [{
      toBurst := c.toBurst
      id := s.allocated
      offset := current_offset
      reserve_dur := duration_
      arrive_time := s.now
      have_found := false
      update := false }]
    allocated := s.allocated + 1
    events := s.events ++ [(s.now + s.ContrlPktProcessTime, .time_to_send_pkt c.toBurst)] }

/-! ## Control packets of one tick -/

/-- The control packet with a number. -/
def control? (s : Obsw) (id : Nat) : Option Controlpkt := s.contrlpkts.find? fun c => c.id = id

/-- The record is one that `update_datapkt` changes. -/
def Hits (c : Controlpkt) (r : Datapacket) : Prop :=
  c.burstid = r.burstid ∧ c.wavelength = r.wavelength ∧ c.src = r.src ∧ c.dst = r.dst ∧ r.nextport ≠ 0

instance (c : Controlpkt) (r : Datapacket) : Decidable (Hits c r) := inferInstanceAs (Decidable (_ ∧ _))

/-- The output port is assigned, not compared. -/
def update_datapkt (s : Obsw) (update : Controlpkt) : Obsw :=
  { s with
    datapkts := s.datapkts.map fun r =>
      if Hits update r then
        { r with
          start_transmit_time := u64 (r.node_current_time + update.offset)
          end_transmit_time := u64 (r.node_current_time + update.offset + update.reserve_dur) }
      else r }

/-- The candidate `id` goes behind the control packet `before`, which has been dealt with, where they
    contend. -/
def pushBehind (id : Nat) (s : Obsw) (before : Nat) : Obsw :=
  match s.control? id, s.control? before with
  | some updatectl, some Tempctl =>
    if Tempctl.update ∧ Tempctl.burstid ≠ updatectl.burstid ∧ Tempctl.nextport = updatectl.nextport ∧
        Tempctl.wavelength = updatectl.wavelength ∧
        u64 (Tempctl.offset + Tempctl.reserve_dur) > updatectl.offset then
      let behind := u64 (Tempctl.offset + Tempctl.reserve_dur)
      -- The new offset is already in place when the duration is shortened by the difference.
      let move (c : Controlpkt) : Controlpkt := { c with
        offset := u32 behind
        reserve_dur := u64 (updatectl.reserve_dur - (behind - u32 behind)) }
      update_datapkt { s with contrlpkts := s.contrlpkts.map fun c => if c.id = id then move c else c }
        (move updatectl)
    else s
  | _, _ => s

/-- The search for the best offset among the control packets that are not dealt with: what `updatectl` and
    the bound are afterwards. -/
def search (better : Nat → Nat → Prop) [DecidableRel better] (found : Option Nat × Nat)
    (c : Controlpkt) : Option Nat × Nat :=
  if c.update = false ∧ better c.offset found.2 then (some c.id, c.offset) else found

/-- The next of the control packets `seg`, of which `number` are of one tick. The bound is kept from one
    search to the next, as is `updatectl` when nothing is found. -/
def candidate (s : Obsw) (seg : List Nat) (number random bound : Nat) : Option Nat × Nat :=
  match s.select_candidate_method with
  | .random => (seg[random % number]?, bound)
  | .minimumOffset => (seg.filterMap s.control?).foldl (search (· < ·)) (s.updatectl, bound)
  | .maximumOffset => (seg.filterMap s.control?).foldl (search (· > ·)) (s.updatectl, bound)

/-- The loop of `update_record_of_control_pkt` over `count`. `random` are the numbers drawn, less those
    that were drawn before. -/
def update_record_of_control_pkt (seg : List Nat) (number : Nat) :
    (count bound : Nat) → (random : List Nat) → Obsw → Except Fault Obsw
  | 0, _, _, s => .ok s
  | count + 1, bound, random, s =>
    let (chosen, bound) := s.candidate seg number (random.headD 0) bound
    match chosen.bind s.control? with
    | none => .error .dangling
    | some updatectl =>
      let s := seg.foldl (pushBehind updatectl.id) { s with updatectl := chosen }
      update_record_of_control_pkt seg number count bound random.tail { s with
        contrlpkts := s.contrlpkts.map fun c => if c.id = updatectl.id then { c with update := true } else c }

/-- The control packet is of the tick `arrive_time` and has not been found. -/
def SameTick (arrive_time : Nat) (c : Controlpkt) : Prop := c.have_found = false ∧ c.arrive_time = arrive_time

instance (arrive_time : Nat) (c : Controlpkt) : Decidable (SameTick arrive_time c) :=
  inferInstanceAs (Decidable (_ ∧ _))

/-- The control packets from the first to the last one of a tick. -/
def segment (arrive_time : Nat) (cs : List Controlpkt) : List Nat :=
  ((cs.dropWhile fun c => ¬ SameTick arrive_time c).rdropWhile fun c => ¬ SameTick arrive_time c).map Controlpkt.id

/-- The tick of the control packet `b`, when it has not been found before. -/
def found_arrive_time (s : Obsw) (b : Burst) : Nat :=
  match s.contrlpkts.find? fun c => c.have_found = false ∧ c.toBurst = b with
  | none => 0
  | some c => c.arrive_time

/-- The control packets that have arrived at the tick of that of the burst. -/
def number_of_same_arrive_time (s : Obsw) (b : Burst) : Nat :=
  s.contrlpkts.countP fun c => SameTick (s.found_arrive_time b) c

/-- The control packets of one tick contend, and one of them goes first. -/
def deal_control_pkt_with_same_arrive_time (s : Obsw) (b : Burst) (random : List Nat) :
    Except Fault Obsw :=
  let arrive_time := s.found_arrive_time b
  let number := s.number_of_same_arrive_time b
  if arrive_time = 0 then .ok s
  else
    let seg := segment arrive_time s.contrlpkts
    let bound := match s.select_candidate_method with
      | .maximumOffset => 0
      | _ => 50000000
    let s := { s with
      contrlpkts := s.contrlpkts.map fun c =>
        if SameTick arrive_time c then { c with have_found := true } else c }
    if number = 1 then .ok s else update_record_of_control_pkt seg number number bound random s

/-- A control packet is due: the contention of its tick, then it leaves. -/
def time_to_send_pkt (s : Obsw) (b : Burst) (random : List Nat) : Except Fault Obsw :=
  match s.deal_control_pkt_with_same_arrive_time b random with
  | .error e => .error e
  | .ok s => .ok { s with
    contrlpkts := cutOut (fun c => c.toBurst = b ∧ c.arrive_time + s.ContrlPktProcessTime = s.now)
      s.contrlpkts }

/-! ## Data packets -/

/-- A data packet passes through while its burst has the wavelength. -/
def reserve_for_current_packet (s : Obsw) (b : Burst) : Bool :=
  match s.datapkts.find? fun r => r.toBurst = b with
  | none => false
  | some r => r.start_transmit_time ≤ s.now ∧ s.now ≤ r.end_transmit_time

/-- The time that a burst may still take here. -/
def Get_useful_time (s : Obsw) (b : Burst) : Nat :=
  match s.datapkts.find? fun r => r.toBurst = b with
  | none => 0
  | some r => u64 (r.end_transmit_time - r.node_current_time)

/-- `send` of a data packet, and its end when there is no reservation: the record is freed later. -/
def sendData (s : Obsw) (b : Burst) : Obsw :=
  let UseTime := s.Get_useful_time b
  if UseTime > 0 then
    { s with events := s.events ++ [(s.now + u64 (UseTime * 3), .Free_datapacket2 b)] }
  else s

/-- `get` of a data packet. -/
def getData (s : Obsw) (b : Burst) : Obsw :=
  if s.reserve_for_current_packet b then s else s.sendData b

/-- The reservation of a burst is freed. -/
def Free_datapacket2 (s : Obsw) (b : Burst) : Obsw :=
  { s with datapkts := cutOut (fun r => r.toBurst = b) s.datapkts }

/-! ## Runs -/

/-- What happens. `get` of a tail-drop control packet gives its new duration as an `int`; `send` of a data
    packet is called by the modules above. Time goes on to `now`, but not past an event. -/
inductive Action where
  | control (c : Control)
  | getData (b : Burst)
  | sendData (b : Burst)
  | tailDrop (b : Burst) (ControlWave : Nat) (TD_new_duration : Int)
  | pass (now : Nat)
  | fire (i : Nat) (random : List Nat)

/-- One action of the switch. -/
def step (s : Obsw) : Action → Except Fault Obsw
  | .control c => .ok (s.getControl c)
  | .getData b => .ok (s.getData b)
  | .sendData b => .ok (s.sendData b)
  | .tailDrop b ControlWave d => .ok ((s.update_prevOL_datapkt b (u64 d)).update_prevOL_contrlpkt
      { b with wavelength := ControlWave } (u64 d))
  | .pass now => .ok (if s.now ≤ now ∧ ∀ e ∈ s.events, now ≤ e.1 then { s with now := now } else s)
  | .fire i random =>
    match s.events[i]? with
    | none => .ok s
    | some (time, event) =>
      if time = s.now then
        let s := { s with events := s.events.eraseIdx i }
        match event with
        | .time_to_send_pkt b => s.time_to_send_pkt b random
        | .Free_datapacket2 b => .ok (s.Free_datapacket2 b)
      else .ok s

/-! ## Reservations -/

/-- No two bursts have a wavelength of a port at the same time, and none has it at a time for which it
    has not asked. -/
structure Reserved (s : Obsw) : Prop where
  disjoint : s.datapkts.Pairwise fun r q => r.nextport = q.nextport → r.wavelength = q.wavelength →
    Disjoint r.interval q.interval
  asked : ∀ r ∈ s.datapkts, r.interval ⊆ r.asked

/-- No `time_to_send_pkt` is pending. -/
def Settled (s : Obsw) : Prop := ∀ e ∈ s.events, ∀ b, e.2 ≠ .time_to_send_pkt b

/-- The interval from `start` to `end_` has a tick in common with the record's. -/
def Overlaps (start end_ : Nat) (r : Datapacket) : Prop :=
  max start r.start_transmit_time < min end_ r.end_transmit_time

instance (start end_ : Nat) (r : Datapacket) : Decidable (Overlaps start end_ r) :=
  inferInstanceAs (Decidable (_ < _))

/-- The interval for which a control packet asks. -/
def startx_time (s : Obsw) (c : Control) : Nat := u64 (s.now + c.offset)

/-- Where the reservation that a control packet asks for would end. -/
def endx_time (s : Obsw) (c : Control) : Nat := u64 (s.startx_time c + c.duration_)

/-- The interval is free on its wavelength and port, but for the record `found`. -/
def Alone (s : Obsw) (c : Control) (found : Option Datapacket) : Prop :=
  ∀ r ∈ s.datapkts, r.nextport = c.nextport → r.wavelength = u8 c.DataWave → some r ≠ found →
    ¬ Overlaps (s.startx_time c) (s.endx_time c) r

instance (s : Obsw) (c : Control) (found : Option Datapacket) : Decidable (s.Alone c found) :=
  inferInstanceAs (Decidable (∀ r ∈ s.datapkts, _))

/-- The control packet contends with no record but `found`, at which the search stops. A record that is
    cut short is found by its key. -/
def HandledBy (s : Obsw) (c : Control) : Option Datapacket → DropMethod → Prop
  | none, _ => s.Alone c none
  | some _, .dropAll => s.endx_time c + 1 < 2 ^ 64
  | some found, .headDrop => s.Alone c (some found)
  | some found, .tailDrop =>
    s.Alone c (some found) ∧ (s.datapkts.find? fun r => r.toBurst = found.toBurst) = some found

instance (s : Obsw) (c : Control) :
    (found : Option Datapacket) → (drop : DropMethod) → Decidable (s.HandledBy c found drop)
  | none, _ => inferInstanceAs (Decidable (s.Alone c none))
  | some _, .dropAll => inferInstanceAs (Decidable (_ < _))
  | some found, .headDrop => inferInstanceAs (Decidable (s.Alone c (some found)))
  | some _, .tailDrop => inferInstanceAs (Decidable (_ ∧ _))

/-- The control packet meets at most the overlap that the drop method handles. -/
def Handled (s : Obsw) (c : Control) : Prop :=
  s.HandledBy c (s.findpkt (s.startx_time c) c.nextport c.DataWave) s.drop_burst_segmentation_method

/-- When several control packets of a tick are dealt with, none of them has the key of a reservation with
    its own wavelength as that of the data. -/
def Untouched (s : Obsw) (b : Burst) : Prop :=
  s.found_arrive_time b ≠ 0 → s.number_of_same_arrive_time b ≠ 1 →
    ∀ c ∈ s.contrlpkts, c.id ∈ segment (s.found_arrive_time b) s.contrlpkts ∨ s.updatectl = some c.id →
      ∀ r ∈ s.datapkts, ¬ Hits c r

/-- A tail-drop control packet does not lengthen a reservation. -/
def Shortens (s : Obsw) (b : Burst) (new_duration : Nat) : Prop :=
  ∀ r ∈ s.datapkts.find? fun r => r.toBurst = b,
    let end_ := u64 (r.start_transmit_time + new_duration)
    end_ ≤ r.end_transmit_time ∨ end_ ≤ r.start_transmit_time

instance (s : Obsw) (b : Burst) : Decidable (s.Untouched b) :=
  inferInstanceAs (Decidable (_ → _ → ∀ c ∈ s.contrlpkts, _ → ∀ r ∈ s.datapkts, _))

instance (s : Obsw) (b : Burst) (new_duration : Nat) : Decidable (s.Shortens b new_duration) :=
  inferInstanceAs (Decidable (∀ r ∈ s.datapkts.find? fun r => r.toBurst = b,
    u64 (r.start_transmit_time + new_duration) ≤ r.end_transmit_time ∨
      u64 (r.start_transmit_time + new_duration) ≤ r.start_transmit_time))

/-- The event does not make a control packet touch a reservation. -/
def FiresClean (s : Obsw) : Event → Prop
  | .time_to_send_pkt b => s.Untouched b
  | .Free_datapacket2 _ => True

instance (s : Obsw) : (e : Event) → Decidable (s.FiresClean e)
  | .time_to_send_pkt b => inferInstanceAs (Decidable (s.Untouched b))
  | .Free_datapacket2 _ => .isTrue trivial

/-- A control packet is handled by the drop method, a cut shortens its burst, and an event touches no
    other reservation. -/
def Clean (s : Obsw) : Action → Prop
  | .control c => s.Handled c
  | .tailDrop b _ d => s.Shortens b (u64 d)
  | .fire i _ => ∀ e ∈ s.events[i]?, s.FiresClean e.2
  | _ => True

instance (s : Obsw) : (a : Action) → Decidable (s.Clean a)
  | .control c => inferInstanceAs (Decidable (s.HandledBy c _ _))
  | .getData _ => .isTrue trivial
  | .sendData _ => .isTrue trivial
  | .tailDrop b _ d => inferInstanceAs (Decidable (s.Shortens b (u64 d)))
  | .pass _ => .isTrue trivial
  | .fire i _ => inferInstanceAs (Decidable (∀ e ∈ s.events[i]?, s.FiresClean e.2))

end Obsw

end Opt
