import Mathlib.Algebra.Order.Ring.Int
import Mathlib.Data.List.MinMax
import Nctuns.Lib.Run

/-!
# Acknowledged data blocks

`state_array.cc`, `tcb.cc`: a sender keeps its blocks in a `SendBuf` until they are acknowledged, a
receiver keeps what has come in in a `RecvBuf`. Both are rings of `GPRS_SNS` slots, indexed by the block
sequence number of seven bits. An acknowledgement is a bitmap of the `GPRS_WS` slots before `ssn`.
-/

namespace Gprs

/-- The sequence numbers. -/
def GPRS_SNS : Nat := 128

/-- The window. -/
def GPRS_WS : Nat := 64

/-! The states of a slot. Two of them have the same value. -/

/-- The state of a slot of the receiver that nothing has arrived for. -/
def INVALID : Nat := 0
/-- The state of a slot whose block has been acknowledged. -/
def ACKED : Nat := 1
/-- The state of a slot whose block has arrived. -/
def RECEIVED : Nat := 1
/-- The state of a slot whose block has been sent and not yet acknowledged. -/
def PENDING_ACK : Nat := 2
/-- The state of a slot whose block is to be sent. -/
def NACK : Nat := 3

/-- The event of a data block. `serial` counts the blocks of a sender from its first one on: it says
    which block this is, and is not part of the message. -/
structure Blk where
  user_data_bsn : Nat
  serial : Nat
  deriving DecidableEq, Repr

/-- A slot: its state and the block in it. -/
structure AckStateArrayElem where
  state : Nat
  bsn : Int
  upper_layer_pdu : Option Blk
  deriving DecidableEq, Repr

/-- `AckStateArrayElem()`, and what a slot that is given up is set to. -/
def AckStateArrayElem.init : AckStateArrayElem where
  state := INVALID
  bsn := -1
  upper_layer_pdu := none

/-- The ring of slots with its two ends. -/
structure StateArray where
  array : List AckStateArrayElem
  head : Nat
  tail : Nat
  deriving DecidableEq, Repr

/-- How a call ends the program. -/
inductive Fault where
  | exit
  | nullPointer
  deriving DecidableEq, Repr

namespace StateArray

variable (b : StateArray)

/-- A ring of empty slots. -/
def init : StateArray where
  array := List.replicate GPRS_SNS .init
  head := 0
  tail := 0

/-- `array[i]`. -/
def slot (i : Nat) : AckStateArrayElem := b.array.getD i .init

/-- The array after `array[i] = e`. -/
def put (i : Nat) (e : AckStateArrayElem) : List AckStateArrayElem := b.array.set i e

/-- The sequence number is one of a slot. -/
def range_test (bsn : Nat) : Prop := bsn < GPRS_SNS

instance (bsn : Nat) : Decidable (range_test bsn) := by unfold range_test; infer_instance

/-- The state of a slot, -1 for a number that is none. -/
def get_state (bsn : Nat) : Int := if range_test bsn then (b.slot bsn).state else -1

/-- The two ends of the ring meet. -/
def is_empty : Prop := b.head % GPRS_SNS = b.tail

instance : Decidable b.is_empty := by unfold is_empty; infer_instance

/-- The second operand of `%` is `elem_num`, its first one is `1`. -/
def is_full : Prop := b.head + 1 % GPRS_SNS = b.tail

instance : Decidable b.is_full := by unfold is_full; infer_instance

end StateArray

/-- The slot `i` before `ssn`, as `create_ack` and `process_ack` compute it. -/
def slotBefore (ssn i : Nat) : Nat :=
  let bsn : Int := (ssn : Int) - i
  (if bsn < 0 then bsn + GPRS_SNS else bsn).toNat

/-! ## The sender -/

/-- The buffer of the sender: its ring, what is sent next and what is waited for. -/
structure SendBuf extends StateArray where
  vs : Nat
  va : Nat
  cur_sent_pending_acked_bsn : Nat
  deriving DecidableEq, Repr

namespace SendBuf

variable (b : SendBuf)

/-- A sender without blocks. -/
def init : SendBuf where
  toStateArray := .init
  vs := 0
  va := 0
  cur_sent_pending_acked_bsn := 0

/-- The sequence number lies between the tail and what is sent next. -/
def within_cur_window (bsn : Nat) : Prop :=
  if b.vs > b.tail then b.tail ≤ bsn ∧ bsn < b.vs
  else if b.vs = b.tail then bsn = b.tail
  else
    let bsn := if bsn < b.vs then bsn + GPRS_SNS else bsn
    b.tail ≤ bsn ∧ bsn < b.vs + GPRS_SNS

instance (bsn : Nat) : Decidable (b.within_cur_window bsn) := by
  unfold within_cur_window; infer_instance

/-- `exit(1)` on a count that is too large. -/
def test_full (blk_cnt : Nat) : Except Fault Bool :=
  if blk_cnt > GPRS_SNS then .error .exit
  else if (b.head + 1) % GPRS_SNS = b.tail then .ok true
  else if b.head ≥ b.tail then
    if b.head + blk_cnt < GPRS_SNS then .ok false
    else .ok (b.head + blk_cnt - GPRS_SNS ≥ b.tail)
  else .ok (b.head + blk_cnt ≥ b.tail)

/-- `PENDING_ACK` or `NACK`. -/
def unacked (i : Nat) : Prop := (b.slot i).state = PENDING_ACK ∨ (b.slot i).state = NACK

instance (i : Nat) : Decidable (b.unacked i) := by unfold unacked; infer_instance

/-- The loops of `forward_tail`: the new `tail`, `meet_vs_flag`, and whether there was a `break`. -/
def scan : List Nat → Nat → Bool → Nat × Bool × Bool
  | [], tail, meet_vs_flag => (tail, meet_vs_flag, false)
  | i :: is, _, meet_vs_flag =>
    let meet_vs_flag := meet_vs_flag || i == b.vs
    if b.unacked i then (i, meet_vs_flag, true) else scan is i meet_vs_flag

/-- The slots that `forward_tail` goes through while there is no `break`. -/
def scanned : List Nat :=
  if b.tail < b.head then List.range' b.tail (b.head + 1 - b.tail)
  else if b.tail > b.head then List.range' b.tail (GPRS_SNS - b.tail) ++ List.range' 0 (b.head + 1)
  else []

/-- The oldest block that is waited for is the tail. -/
def forward_va : SendBuf := { b with va := b.tail }

/-- The tail passes what has been acknowledged. -/
def forward_tail : SendBuf :=
  let (tail, meet_vs_flag, _) := b.scan b.scanned b.tail false
  let b := { b with tail := tail }.forward_va
  if meet_vs_flag then
    match (List.range GPRS_WS).find? fun i => (b.slot ((b.tail + i) % GPRS_SNS)).state = NACK with
    | some i => { b with vs := (b.tail + i) % GPRS_SNS }
    | none => { b with vs := b.va }
  else b

/-- The loop of `recycle` over slots from the head on. -/
def recycle_slots : List Nat → SendBuf → SendBuf
  | [], b => b
  | ind :: inds, b =>
    if (b.slot ind).state ≠ ACKED ∧ (b.slot ind).state ≠ INVALID then b
    else recycle_slots inds { b with array := b.put ind .init }

/-- Slots in front of the head are emptied. -/
def recycle : SendBuf :=
  (recycle_slots ((List.range 20).map fun cnt => (b.head + cnt) % GPRS_SNS) b).forward_tail

/-- The result says whether the block has been taken. -/
def insert (e_p : Blk) (bsn : Nat) : Except Fault (Bool × SendBuf) :=
  let b := b.recycle
  if ¬ StateArray.range_test bsn then .error .exit
  else if b.is_full then .ok (false, b)
  else if bsn ≠ b.head % GPRS_SNS then .error .exit
  else if (b.slot b.head).state = INVALID then
    .ok (true, { b with
      array := b.put b.head { state := NACK, bsn := bsn, upper_layer_pdu := some e_p }
      head := (b.head + 1) % GPRS_SNS })
  else .error .exit

/-- A slot whose block has been acknowledged is emptied. -/
def del (bsn : Nat) : Except Fault SendBuf :=
  if bsn > 127 then .error .exit
  else if (b.slot bsn).state = ACKED then
    if (b.slot bsn).upper_layer_pdu.isSome then .ok { b with array := b.put bsn .init } else .ok b
  else .error .exit

/-- A slot gets a state. -/
def set_state (bsn state : Nat) : SendBuf :=
  if StateArray.range_test bsn then
    { b with array := b.put bsn { b.slot bsn with state := state } }
  else b

/-- Slot `i` is handed out for transmission. -/
def transmit (i : Nat) : Option Blk × SendBuf :=
  ((b.slot i).upper_layer_pdu,
    { b with array := b.put i { b.slot i with state := PENDING_ACK } })

/-- `send_nack_or_pending_ack`. -/
def window_test : Nat :=
  if b.va + GPRS_WS > b.vs ∧ b.vs ≥ b.va then 1
  else if b.va ≥ b.vs ∧ (b.va + GPRS_WS) % GPRS_SNS > b.vs then 1
  else if b.va + GPRS_WS = b.vs ∧ b.vs > b.va then 2
  else if b.va > b.vs ∧ (b.va + GPRS_WS) % GPRS_SNS = b.vs then 2
  else 0

/-- `cur_sent_pending_acked_bsn` steps on and the slot it was at is handed out. -/
def transmit_pending : Option Blk × SendBuf :=
  let tmp_index := b.cur_sent_pending_acked_bsn
  let cur := (tmp_index + 1) % GPRS_SNS
  let cur := if cur = (b.vs + 1) % GPRS_SNS then b.va else cur
  { b with cur_sent_pending_acked_bsn := cur }.transmit tmp_index

/-- The loop that looks for a slot in the state `PENDING_ACK`. -/
def find_pending : List Nat → SendBuf
  | [] => b
  | i :: is =>
    let index := (b.cur_sent_pending_acked_bsn + i) % GPRS_SNS
    if index = (b.vs + 1) % GPRS_SNS then { b with cur_sent_pending_acked_bsn := b.va }
    else if (b.slot index).state = PENDING_ACK then { b with cur_sent_pending_acked_bsn := index }
    else find_pending is

/-- A block that has been sent and is not yet acknowledged is sent again. -/
def get_pending_blk : Option Blk × SendBuf :=
  let b := if ¬ b.within_cur_window b.cur_sent_pending_acked_bsn then
    { b with cur_sent_pending_acked_bsn := b.va } else b
  if b.unacked b.cur_sent_pending_acked_bsn then b.transmit_pending
  else
    let b := b.find_pending (List.range GPRS_WS)
    if (b.slot b.cur_sent_pending_acked_bsn).state = PENDING_ACK then b.transmit_pending
    else (none, { b with va := b.vs, cur_sent_pending_acked_bsn := b.vs })

/-- The block to be sent: the next one of the window, else one that is sent again. -/
def get_transmitted_blk : Option Blk × SendBuf :=
  if b.window_test = 1 ∧ (b.slot b.vs).state = NACK then
    { b with vs := (b.vs + 1) % GPRS_SNS }.transmit b.vs
  else if b.window_test = 1 ∨ b.window_test = 2 then b.get_pending_blk
  else (none, b)

end SendBuf

/-! ## The receiver -/

/-- The buffer of the receiver: its ring, and what it has received up to. -/
structure RecvBuf extends StateArray where
  ssn : Int
  vq : Int
  deriving DecidableEq, Repr

/-- Conversion to `ulong`. -/
def ulong (z : Int) : Nat := (z % 2 ^ 64).toNat

namespace RecvBuf

variable (b : RecvBuf)

/-- A receiver without blocks. -/
def init : RecvBuf where
  toStateArray := .init
  ssn := -1
  vq := 0

/-- The loop ends before `head`, so `i % elem_num` is `i`. -/
def forward_vq : RecvBuf :=
  let found :=
    if 0 ≤ b.vq ∧ (b.slot b.vq.toNat).state = RECEIVED then
      (List.range' b.vq.toNat (b.head - b.vq.toNat)).find? fun i => (b.slot i).state ≠ RECEIVED
    else none
  let vq : Int :=
    match found with
    | some i => i
    | none => b.ssn
  { b with vq := vq, tail := ulong vq }

/-- The head passes the block that has arrived. -/
def forward_head (bsn : Nat) : RecvBuf :=
  if b.head ≤ bsn % GPRS_SNS then { b with head := (bsn + 1) % GPRS_SNS } else b

/-- `insert` compares the result with zero, which it is never below. -/
def within_recv_window (bsn : Nat) : Except Fault Int :=
  let window_end := (b.vq + GPRS_WS) % GPRS_SNS
  if window_end > b.vq then
    .ok (if bsn ≥ ulong b.vq ∧ bsn < window_end then 1 else 0)
  else if window_end = b.vq then .error .exit
  else
    let bsn : Int := if bsn < window_end then bsn + GPRS_SNS else bsn
    .ok (if bsn ≥ ulong b.vq ∧ bsn < window_end + GPRS_SNS then 1 else 0)

/-- Slots are emptied up to the tail, or to one in another state. -/
def recycle_slots : List Nat → RecvBuf → RecvBuf
  | [], b => b
  | ind :: inds, b =>
    if ind = b.tail then recycle_slots inds b
    else if (b.slot ind).state ≠ RECEIVED ∧ (b.slot ind).state ≠ INVALID then b
    else recycle_slots inds { b with array := b.put ind .init }

/-- Slots in front of the head are emptied. -/
def recycle : RecvBuf :=
  recycle_slots ((List.range 10).map fun cnt => (b.head + cnt) % GPRS_SNS) b.forward_vq

/-- The event in slot `bsn`, where `ssn` now points behind. -/
def store (ep : Blk) (bsn : Nat) : RecvBuf :=
  { b with
    array := b.put bsn { state := RECEIVED, bsn := bsn, upper_layer_pdu := some ep }
    ssn := (bsn + 1) % GPRS_SNS }

/-- The result says whether the block has been taken. -/
def insert (ep : Blk) (bsn : Nat) : Except Fault (Bool × RecvBuf) :=
  if ¬ StateArray.range_test bsn then .error .exit
  else
    match b.within_recv_window bsn with
    | .error e => .error e
    | .ok res =>
      if res < 0 then .ok (false, b)
      else
        let b := b.recycle
        let ptr := b.slot bsn
        if (b.slot ((b.head + 1) % GPRS_SNS)).upper_layer_pdu.isSome then .ok (false, b)
        else if ptr.state = INVALID ∨
            ptr.state = RECEIVED ∧ ptr.bsn < 0 ∧ ptr.upper_layer_pdu = none then
          let b := (b.store ep bsn).forward_head bsn
          .ok (true, if (bsn : Int) = b.vq then b.forward_vq else b)
        else if ptr.upper_layer_pdu = none then .error .nullPointer
        else
          let b := b.store ep bsn
          .ok (true, if (bsn : Int) = b.vq then b.forward_vq else b)

/-- The loop of `recycle_current_event`. -/
def recycle_events : List Nat → RecvBuf → RecvBuf
  | [], b => b
  | ind :: inds, b =>
    if (b.slot ind).state ≠ RECEIVED then b
    else if (b.slot ind).upper_layer_pdu.isSome then
      recycle_events inds { b with
        array := b.put ind { state := RECEIVED, bsn := -1, upper_layer_pdu := none } }
    else recycle_events inds b

/-- The slots of a packet that has been put together are emptied. -/
def recycle_current_event (sbsn blk_cnt : Nat) : Except Fault RecvBuf :=
  if sbsn ≥ 128 then .error .exit
  else if blk_cnt ≥ 128 then .error .exit
  else .ok (recycle_events ((List.range blk_cnt).map fun cnt => (sbsn + cnt) % GPRS_SNS) b)

end RecvBuf

/-! ## Acknowledgements -/

/-- An acknowledgement: a first number and a bit for each block of the window. -/
structure AckNack where
  starting_sequence_number : Nat
  received_block_bitmap : List Nat
  deriving DecidableEq, Repr

/-- `ssn` goes from `long` to `uchar`. -/
def RecvBuf.create_ack (vn : RecvBuf) : Option AckNack :=
  if vn.ssn < 0 then none
  else some
    { starting_sequence_number := vn.ssn.toNat % 256
      received_block_bitmap := (List.range' 1 GPRS_WS).map fun i =>
        (vn.slot (slotBefore vn.ssn.toNat i)).state }

/-- The loop of `process_ack`, which adds the blocks that it marks to `acked`. -/
def SendBuf.process_bits (ack : AckNack) (head_ind : Nat) :
    List Nat → Bool → SendBuf → List Blk → Except Fault (SendBuf × List Blk)
  | [], _, vb, acked => .ok (vb, acked)
  | i :: is, boundary_flag, vb, acked =>
    let bsn := slotBefore ack.starting_sequence_number (i + 1)
    if boundary_flag ∨ bsn = head_ind then .ok (vb, acked)
    else
      let boundary_flag := bsn == vb.tail
      if ack.received_block_bitmap.getD i 0 = ACKED ∧ vb.get_state bsn = PENDING_ACK then
        match (vb.set_state bsn ACKED).del bsn with
        | .error e => .error e
        | .ok vb' =>
          process_bits ack head_ind is boundary_flag vb'
            ((vb.slot bsn).upper_layer_pdu.toList ++ acked)
      else process_bits ack head_ind is boundary_flag vb acked

/-- The blocks that an acknowledgement marks as received leave the window. -/
def SendBuf.process_ack (vb : SendBuf) (ack : AckNack) : Except Fault (SendBuf × List Blk) :=
  match vb.process_bits ack vb.head (List.range GPRS_WS) false [] with
  | .error e => .error e
  | .ok (vb, acked) => .ok (vb.forward_tail, acked)

/-! ## A receiver by itself -/

/-- `received` has the numbers of the blocks that have been taken. -/
structure Receiver where
  vn : RecvBuf
  received : List Nat
  deriving DecidableEq, Repr

/-- Block number `n` comes in, or a frame is complete. -/
inductive Receiver.Op where
  | insert (n : Nat)
  | assembled (start_bsn total_blk_cnt : Nat)
  deriving DecidableEq, Repr

namespace Receiver

/-- A receiver that nothing has arrived at. -/
def init : Receiver where
  vn := .init
  received := []

variable (s : Receiver)

/-- A block arrives, or a packet has been put together. -/
def step (s : Receiver) : Op → Except Fault Receiver
  | .insert n =>
    match s.vn.insert { user_data_bsn := n % GPRS_SNS, serial := n } (n % GPRS_SNS) with
    | .error e => .error e
    | .ok (true, vn) => .ok { vn := vn, received := n :: s.received }
    | .ok (false, vn) => .ok { s with vn := vn }
  | .assembled start_bsn total_blk_cnt =>
    match s.vn.recycle_current_event start_bsn total_blk_cnt with
    | .error e => .error e
    | .ok vn => .ok { s with vn := vn.recycle }

/-- The highest block received. -/
def highest : Nat := s.received.foldr max 0

/-- The lowest block not yet received. -/
def lowest : Nat :=
  ((List.range s.received.length).find? fun n => n ∉ s.received).getD s.received.length

/-- V(R) is one past the highest block received, V(Q) is the lowest one missing. -/
def Right : Prop :=
  s.received ≠ [] →
    s.vn.ssn = ((s.highest + 1) % GPRS_SNS : Nat) ∧ s.vn.vq = (s.lowest % GPRS_SNS : Nat)

instance : Decidable s.Right := by unfold Right; infer_instance

end Receiver

/-! ## A sender by itself -/

/-- `sent` is the block that the last step handed out, `acked` has the numbers of the blocks that have been
    marked `ACKED`. -/
structure Sender where
  vb : SendBuf
  serials : Nat
  sent : Option Blk
  acked : List Nat
  deriving DecidableEq, Repr

/-- The calls of a sender. -/
inductive Sender.Op where
  | insert
  | get_transmitted_blk
  | process_ack (ack : AckNack)
  deriving DecidableEq, Repr

namespace Sender

/-- A sender that has nothing to send. -/
def init : Sender where
  vb := .init
  serials := 0
  sent := none
  acked := []

variable (s : Sender)

/-- The next block, for the slot that `get_head` gives. -/
def blk : Blk := { user_data_bsn := s.vb.head, serial := s.serials }

/-- A call of the sender. -/
def step (s : Sender) : Op → Except Fault Sender
  | .insert =>
    match s.vb.insert s.blk s.vb.head with
    | .error e => .error e
    | .ok (true, vb) => .ok { s with vb := vb, serials := s.serials + 1, sent := none }
    | .ok (false, vb) => .ok { s with vb := vb, sent := none }
  | .get_transmitted_blk =>
    .ok { s with vb := s.vb.get_transmitted_blk.2, sent := s.vb.get_transmitted_blk.1 }
  | .process_ack ack =>
    match s.vb.process_ack ack with
    | .error e => .error e
    | .ok (vb, acked) =>
      .ok { s with vb := vb, sent := none, acked := acked.map Blk.serial ++ s.acked }

/-- The unacknowledged block that was put in first. -/
def oldest : Option Blk :=
  (((List.range GPRS_SNS).filter fun i => s.vb.unacked i).filterMap fun i =>
    (s.vb.slot i).upper_layer_pdu).argmin Blk.serial

/-- A block that is handed out is less than `GPRS_WS` ahead of the oldest unacknowledged one. -/
def InWindow : Prop :=
  ∀ blk ∈ s.sent, ∀ o ∈ s.oldest,
    (blk.user_data_bsn + GPRS_SNS - o.user_data_bsn) % GPRS_SNS < GPRS_WS

/-- The window is full, no block in it but the first one waits for an acknowledgement, the next block to
    look at is the second one, and there is a block behind the window. -/
def Hole : Prop :=
  s.vb.vs = (s.vb.tail + GPRS_WS) % GPRS_SNS ∧
    s.vb.cur_sent_pending_acked_bsn = (s.vb.tail + 1) % GPRS_SNS ∧
    (∀ i ∈ List.range' 1 (GPRS_WS - 1),
      (s.vb.slot ((s.vb.tail + i) % GPRS_SNS)).state ≠ PENDING_ACK) ∧
    (s.vb.slot s.vb.vs).state = NACK

instance : Decidable s.Hole := by unfold Hole; infer_instance

/-- The search for a block does not start in a hole. -/
def NoHole (s : Sender) : Op → Prop
  | .get_transmitted_blk => ¬ s.Hole
  | _ => True

instance (op : Op) : Decidable (s.NoHole op) := by
  unfold NoHole; split <;> infer_instance

/-- A block is in its slot until it is acknowledged, and an empty ring has no block that is not. -/
def Contains : Prop :=
  (∀ n < s.serials, n ∉ s.acked → s.vb.unacked (n % GPRS_SNS) ∧
    (s.vb.slot (n % GPRS_SNS)).upper_layer_pdu =
      some { user_data_bsn := n % GPRS_SNS, serial := n }) ∧
  (s.vb.is_empty → ∀ i, ¬ s.vb.unacked i)

/-- `insert` puts the block in the next slot, or does not change the ring. -/
def Inserts (s : Sender) : Op → Prop
  | .insert =>
    match s.vb.insert s.blk s.vb.head with
    | .ok (true, vb) => vb.head = (s.vb.head + 1) % GPRS_SNS ∧
        vb.slot s.vb.head = { state := NACK, bsn := s.vb.head, upper_layer_pdu := some s.blk }
    | .ok (false, vb) => vb.toStateArray = s.vb.toStateArray
    | .error _ => False
  | _ => True

/-- A ring that is one short of full does not end where the array does. -/
def Apart (s : Sender) : Op → Prop
  | .insert => ¬ (s.vb.head = GPRS_SNS - 1 ∧ s.vb.tail = 0)
  | _ => True

instance (op : Op) : Decidable (s.Apart op) := by
  unfold Apart; split <;> infer_instance

end Sender

/-! ## A sender, a receiver, and what is on the air between them -/

/-- `serials` counts the blocks made. An acknowledgement on the air comes with the number of the block that
    had been stored last when it was made. `stored` has the numbers of the blocks that the receiver has
    stored, the last one first, and `acked` those that the sender has marked `ACKED`. -/
structure Link where
  vb : SendBuf
  vn : RecvBuf
  serials : Nat
  air : List Blk
  acks : List (AckNack × Nat)
  stored : List Nat
  acked : List Nat
  deriving DecidableEq, Repr

/-- What happens. Copies are taken from the air by their place; a copy that is delivered stays there. -/
inductive Link.Op where
  | partition_upper_layer_pdu (blk_cnt : Nat)
  | scheduler
  | recv_data (copy : Nat)
  | lose_data (copy : Nat)
  | assembled (start_bsn total_blk_cnt : Nat)
  | create_ack
  | recv_ack (ack : Nat)
  | lose_ack (ack : Nat)
  deriving DecidableEq, Repr

namespace Link

/-- A link with nothing on its way. -/
def init : Link where
  vb := .init
  vn := .init
  serials := 0
  air := []
  acks := []
  stored := []
  acked := []

variable (s : Link)

/-- The blocks of a frame, each put in at the head. The uplink stops the program when there is no room,
    the downlink goes on with the next block. -/
def insert_blks (uplink : Bool) : Nat → Link → Except Fault Link
  | 0, s => .ok s
  | cnt + 1, s =>
    match s.vb.insert { user_data_bsn := s.vb.head, serial := s.serials } s.vb.head with
    | .error e => .error e
    | .ok (true, vb) => insert_blks uplink cnt { s with vb := vb, serials := s.serials + 1 }
    | .ok (false, vb) =>
      if uplink then .error .exit else insert_blks uplink cnt { s with vb := vb }

/-- A frame of `blk_cnt` blocks is refused when there is no room for all of them. -/
def partition_upper_layer_pdu (uplink : Bool) (blk_cnt : Nat) : Except Fault Link :=
  match s.vb.test_full blk_cnt with
  | .error e => .error e
  | .ok true => .ok s
  | .ok false => s.insert_blks uplink blk_cnt

/-- The sender sends a block. -/
def scheduler : Link :=
  let (blk, vb) := s.vb.get_transmitted_blk
  { s with vb := vb, air := s.air ++ blk.toList }

/-- The number of the oldest block in the send buffer, or of the next one if there is none. -/
def oldest : Nat := s.serials - (s.vb.head + GPRS_SNS - s.vb.tail) % GPRS_SNS

/-- A copy arrives at most while its block is in the send window. -/
def recv_data (copy : Nat) : Except Fault Link :=
  match s.air[copy]? with
  | none => .ok s
  | some blk =>
    if blk.serial < s.oldest then .ok s
    else
      match s.vn.insert blk blk.user_data_bsn with
      | .error e => .error e
      | .ok (true, vn) => .ok { s with vn := vn, stored := blk.serial :: s.stored }
      | .ok (false, vn) => .ok { s with vn := vn }

/-- What `recv_data` does when a frame is complete. Which slots it had is up to the partial queue. -/
def assembled (start_bsn total_blk_cnt : Nat) : Except Fault Link :=
  match s.vn.recycle_current_event start_bsn total_blk_cnt with
  | .error e => .error e
  | .ok vn => .ok { s with vn := vn.recycle }

/-- The receiver sends an acknowledgement. -/
def create_ack : Link :=
  match s.vn.create_ack, s.stored with
  | some ack, last :: _ => { s with acks := s.acks ++ [(ack, last)] }
  | _, _ => s

/-- A copy of an acknowledgement arrives. -/
def recv_ack (k : Nat) : Except Fault Link :=
  match s.acks[k]? with
  | none => .ok s
  | some (ack, _) =>
    match s.vb.process_ack ack with
    | .error e => .error e
    | .ok (vb, acked) => .ok { s with
        vb := vb
        acks := s.acks.eraseIdx k
        acked := acked.map Blk.serial ++ s.acked }

/-- One action on the link. -/
def step (uplink : Bool) (s : Link) : Op → Except Fault Link
  | .partition_upper_layer_pdu blk_cnt => s.partition_upper_layer_pdu uplink blk_cnt
  | .scheduler => .ok s.scheduler
  | .recv_data copy => s.recv_data copy
  | .lose_data copy => .ok { s with air := s.air.eraseIdx copy }
  | .assembled start_bsn total_blk_cnt => s.assembled start_bsn total_blk_cnt
  | .create_ack => .ok s.create_ack
  | .recv_ack k => s.recv_ack k
  | .lose_ack k => .ok { s with acks := s.acks.eraseIdx k }

/-! ## Specification -/

/-- Every block that is marked has been stored. -/
def AckedStored : Prop := ∀ n ∈ s.acked, n ∈ s.stored

/-- The number of the block that was last stored in slot `i`. -/
def storedAt (i : Nat) : Option Nat := s.stored.find? fun n => n % GPRS_SNS = i

/-- Slot `i` is `RECEIVED` for a block that the last one stored is a lap or more ahead of. -/
def Stale (i : Nat) : Prop :=
  (s.vn.slot i).state = RECEIVED ∧
    ∃ n ∈ s.storedAt i, ∃ last ∈ s.stored.head?, n + GPRS_SNS ≤ last

instance (i : Nat) : Decidable (s.Stale i) := by unfold Stale; infer_instance

/-- No slot of the bitmap is left from an earlier lap when it is made, and the sender has not put in the
    block a lap ahead of the last one stored when it comes in. -/
def InLap (s : Link) : Op → Prop
  | .create_ack => ∀ i ∈ List.range' 1 GPRS_WS, ¬ s.Stale (slotBefore s.vn.ssn.toNat i)
  | .recv_ack k => ∀ p ∈ s.acks[k]?, s.serials ≤ p.2 + GPRS_SNS
  | _ => True

instance (op : Op) : Decidable (s.InLap op) := by
  unfold InLap; split <;> infer_instance

end Link

end Gprs
