import Mathlib.Data.Set.Function
import Nctuns.Lib.Delimited
import Nctuns.Lib.LittleEndian
import Nctuns.Lib.Memory

/-!
# AAL5 over ATM cells

`Rcs_atm` (`rcs_atm.cc`, `rcs_atm.h`) with `atm_cell.h` and `crc.cc`: a payload is padded, given a
trailer and cut into cells; the receiver gathers cells in a buffer for each pair of a queue id and a
logon id. What `new` and `malloc` return is not initialised, and the memory behind a block is unknown:
both are inputs.
-/

namespace Dvb

open Memory

/-- The bytes of the trailer of an AAL5 frame. -/
abbrev AAL5_TRAILER_LEN : Nat := 8
/-- The bytes of the payload of a cell. -/
abbrev ATM_PAYLOAD_LEN : Nat := 48
/-- The polynomial of the header check. -/
abbrev ATM_HEX_CRC8_POLY : UInt32 := 0x07
/-- The polynomial of CRC-32. -/
abbrev IEEE_8023_CRC32_POLY : UInt32 := 0x04C11DB7
/-- The payload type of a cell. -/
abbrev ATM_PT_NONE : Byte := 0x00
/-- The payload type of the last cell of a frame. -/
abbrev ATM_PT_LAST_CELL : Byte := 0x08

namespace Crc

/-- The step of `Crc::crc` for bit `j` of a byte. -/
def bit (crc_len gen_poly : UInt32) (byte : Byte) (shift_reg : UInt32) (j : Byte) : UInt32 :=
  if (shift_reg &&& ((1 : UInt32) <<< (crc_len - 1))) ^^^
      ((byte &&& ((0x80 : Byte) >>> j)).toUInt32 <<< (crc_len - 1 - (7 - j.toUInt32))) ≠ 0 then
    (shift_reg <<< 1) ^^^ gen_poly
  else shift_reg <<< 1

/-- One byte of a checksum. -/
def byte (crc_len gen_poly shift_reg : UInt32) (b : Byte) : UInt32 :=
  [0, 1, 2, 3, 4, 5, 6, 7].foldl (bit crc_len gen_poly b) shift_reg

/-- `Crc::crc`. -/
def crc (user_packet : List Byte) (crc_len gen_poly init_value : UInt32) : UInt32 :=
  if user_packet.length = 0 then 0
  else user_packet.foldl (byte crc_len gen_poly) (if init_value = 1 then 0xFFFFFFFF else 0x00)

end Crc

/-- The checksum of a header. -/
def CRC8 (data : List Byte) (poly init : UInt32) : Byte := (Crc.crc data 8 poly init).toUInt8

/-- The checksum of a frame. -/
def CRC32 (data : List Byte) (poly init : UInt32) : UInt32 := Crc.crc data 32 poly init

/-- `struct atm_cell`. -/
structure AtmCell where
  header0 : Byte
  header1 : Byte
  header2 : Byte
  header3 : Byte
  hec : Byte
  payload : List Byte
  len : payload.length = ATM_PAYLOAD_LEN

namespace AtmCell

/-- The first four bits of a header. -/
def ATM_SETGFC (gfc : Byte) (cell : AtmCell) : AtmCell :=
  { cell with header0 := (cell.header0 &&& 0x0F) ||| ((gfc &&& 0x0F) <<< (4 : Byte)) }

/-- The path of a cell. -/
def ATM_SETVPI (vpi : Byte) (cell : AtmCell) : AtmCell :=
  { cell with
    header0 := (cell.header0 &&& 0xF0) ||| ((vpi >>> (4 : Byte)) &&& 0x0F)
    header1 := (cell.header1 &&& 0x0F) ||| ((vpi <<< (4 : Byte)) &&& 0xF0) }

/-- The channel of a cell. -/
def ATM_SETVCI (vci : UInt16) (cell : AtmCell) : AtmCell :=
  { cell with
    header1 := (cell.header1 &&& 0xF0) ||| ((vci >>> (12 : UInt16)).toUInt8 &&& 0x0F)
    header2 := (vci >>> (8 : UInt16)).toUInt8
    header3 := (cell.header3 &&& 0x0F) ||| ((vci <<< (4 : UInt16)).toUInt8 &&& 0xF0) }

/-- The payload type of a cell. -/
def ATM_SETPT (flag : Byte) (cell : AtmCell) : AtmCell :=
  { cell with header3 := (cell.header3 &&& 0xF0) ||| (flag &&& 0x0A) }

/-- The payload type of a cell is read. -/
def ATM_GETPT (cell : AtmCell) : Byte := cell.header3 &&& 0x0A

/-- The CRC of the five bytes of the header, with `hec` zero. -/
def headerCrc (cell : AtmCell) : Byte :=
  CRC8 [cell.header0, cell.header1, cell.header2, cell.header3, 0] ATM_HEX_CRC8_POLY 1

/-- The cell is the last one of its frame. -/
def isLast (cell : AtmCell) : Bool := cell.ATM_GETPT &&& ATM_PT_LAST_CELL ≠ 0

end AtmCell

/-- `struct aal5_pdu`; the trailer lies in the block `data`. -/
structure Aal5Pdu where
  data : Nat → Byte
  padding_len : Byte
  trailer : Nat

namespace Aal5Pdu

/-- The length field of the trailer. -/
def payload_len (p : Aal5Pdu) : Nat :=
  LittleEndian.value (read (fun k => p.data (p.trailer + 2 + k)) 2)

/-- The checksum field of the trailer. -/
def crc32 (p : Aal5Pdu) : UInt32 :=
  .ofNat (LittleEndian.value (read (fun k => p.data (p.trailer + 4 + k)) 4))

end Aal5Pdu

/-- The fields of `Rcs_atm` that the sender reads, which nothing ever sets. -/
structure RcsAtm where
  _vpi : Byte
  _vci : UInt16

/-- A packet handed to `Rcs_atm::send`, and the cells that `new` returns for it. -/
structure AtmPacket where
  payload : List Byte
  pos : 0 < payload.length
  fits : payload.length ≤ 65535
  cells : Nat → AtmCell

namespace RcsAtm

/-- The PDU as bytes, without its CRC: payload, padding, `cpcs_uu`, `cpi` and the length. -/
def pduBytes (payload : List Byte) (padding_len : Nat) : List Byte :=
  payload ++ List.replicate padding_len 0x00 ++ [0x00, 0x00] ++ LittleEndian.bytes 2 payload.length

/-- `Rcs_atm::_encapsulation_aal5`. -/
def _encapsulation_aal5 (payload : List Byte) : Option Aal5Pdu :=
  if payload.length = 0 then none
  else
    let padding_len := (payload.length + AAL5_TRAILER_LEN) % ATM_PAYLOAD_LEN
    let padding_len := if padding_len > 0 then ATM_PAYLOAD_LEN - padding_len else padding_len
    let bytes := pduBytes payload padding_len
    let crc32 := ~~~ CRC32 bytes IEEE_8023_CRC32_POLY 1
    some
      { data := ofList (bytes ++ LittleEndian.bytes 4 crc32.toNat) fun _ => 0
        padding_len := .ofNat padding_len
        trailer := payload.length + padding_len }

/-- The cell number `cell_cnt` of a PDU, in the memory of `cell`. -/
def makeCell (m : RcsAtm) (data : Nat → Byte) (cell_cnt : Nat) (pt : Byte) (cell : AtmCell) :
    AtmCell :=
  let cell := { cell with
    payload := read (fun k => data (cell_cnt * ATM_PAYLOAD_LEN + k)) ATM_PAYLOAD_LEN
    len := length_read _ _ }
  let cell := (((cell.ATM_SETPT pt).ATM_SETGFC 0x00).ATM_SETVPI m._vpi).ATM_SETVCI m._vci
  { cell with hec := ~~~ cell.headerCrc }

/-- The loop of `_segmentation_atm`. -/
def segments (m : RcsAtm) (data : Nat → Byte) (cells : Nat → AtmCell) :
    Nat → Nat → Nat → Option (List AtmCell)
  | 0, _, _ => none
  | fuel + 1, cell_cnt, len =>
    if len > ATM_PAYLOAD_LEN then
      match segments m data cells fuel (cell_cnt + 1) (len - ATM_PAYLOAD_LEN) with
      | none => none
      | some rest => some (m.makeCell data cell_cnt ATM_PT_NONE (cells cell_cnt) :: rest)
    else if len = ATM_PAYLOAD_LEN then
      some [m.makeCell data cell_cnt ATM_PT_LAST_CELL (cells cell_cnt)]
    else none

/-- `Rcs_atm::_segmentation_atm`. -/
def _segmentation_atm (m : RcsAtm) (p : Aal5Pdu) (cells : Nat → AtmCell) : Option (List AtmCell) :=
  let len := p.payload_len + p.padding_len.toNat + AAL5_TRAILER_LEN
  if p.payload_len > 0 ∧ len % ATM_PAYLOAD_LEN = 0 then m.segments p.data cells len 0 len
  else none

/-- `Rcs_atm::send`; `none` where an assertion fails. -/
def send (m : RcsAtm) (pkt : AtmPacket) : Option (List AtmCell) :=
  match _encapsulation_aal5 pkt.payload with
  | none => none
  | some p => m._segmentation_atm p pkt.cells

/-- The cells of several packets, one packet behind the other. -/
def sendAll (m : RcsAtm) : List AtmPacket → Option (List AtmCell)
  | [] => some []
  | pkt :: pkts =>
    match m.send pkt, m.sendAll pkts with
    | some cells, some rest => some (cells ++ rest)
    | _, _ => none

/-- `Rcs_atm::_re_assembly_atm` of the cells of a buffer, with the memory behind the new block. -/
def _re_assembly_atm (cells : List AtmCell) (behind : Nat → Byte) : Option Aal5Pdu :=
  if cells.all fun cell => cell.hec ||| cell.headerCrc = 0xFF then
    let len := cells.length * ATM_PAYLOAD_LEN - AAL5_TRAILER_LEN
    let p : Aal5Pdu := ⟨ofList (cells.flatMap AtmCell.payload) behind, 0, len⟩
    -- the difference is stored in 8 bits
    some { p with padding_len := .ofInt (len - p.payload_len : Int) }
  else none

/-- `Rcs_atm::_de_encapsulation_aal5`: the payload, or nothing if the CRC fails; the error is its
    assertion. -/
def _de_encapsulation_aal5 (p : Aal5Pdu) : Except Unit (Option (List Byte)) :=
  if p.payload_len = 0 then .error ()
  else
    let len := p.payload_len + p.padding_len.toNat
    let crc32 := CRC32 (read p.data (len + 4)) IEEE_8023_CRC32_POLY 1
    if p.crc32 ||| crc32 ≠ 0xFFFFFFFF then .ok none
    else .ok (some (read p.data p.payload_len))

end RcsAtm

/-- The RCST queue that a packet comes from. -/
structure AtmFlow where
  group_id : UInt8
  logon_id : UInt16
  queue_id : UInt32
  deriving DecidableEq

/-- The `vpi` and `vci` of its buffer: `find_buffer` takes the queue id as a `uint8_t`. -/
def AtmFlow.buffer (f : AtmFlow) : UInt8 × UInt16 := (f.queue_id.toUInt8, f.logon_id)

/-- A cell on its arrival, and the memory behind the block that its PDU is put into. -/
structure AtmArrival where
  flow : AtmFlow
  cell : AtmCell
  behind : Nat → Byte

/-- `_rx_rbuf_head`: the cells of each buffer; one that does not exist is empty. -/
abbrev AtmBuffers := UInt8 × UInt16 → List AtmCell

/-- What becomes of the cells of a buffer when the last one is in. -/
def reassemble (cells : List AtmCell) (behind : Nat → Byte) : Except Unit (Option (List Byte)) :=
  match RcsAtm._re_assembly_atm cells behind with
  | none => .ok none
  | some p => RcsAtm._de_encapsulation_aal5 p

/-- `Rcs_atm::recv`: the buffers, and the payload that goes up with its flow. -/
def recv (s : AtmBuffers) (a : AtmArrival) :
    Except Unit (AtmBuffers × Option (AtmFlow × List Byte)) :=
  let rbuf := s a.flow.buffer ++ [a.cell]
  if a.cell.isLast then
    match reassemble rbuf a.behind with
    | .error e => .error e
    | .ok none => .ok (Function.update s a.flow.buffer [], none)
    | .ok (some payload) => .ok (Function.update s a.flow.buffer [], some (a.flow, payload))
  else .ok (Function.update s a.flow.buffer rbuf, none)

/-- All arrivals one after another, and what goes up. -/
def recvAll (s : AtmBuffers) : List AtmArrival → Except Unit (List (AtmFlow × List Byte))
  | [] => .ok []
  | a :: as =>
    match recv s a with
    | .error e => .error e
    | .ok (s, up) =>
      match recvAll s as with
      | .error e => .error e
      | .ok ups => .ok (up.toList ++ ups)

/-- Whatever the queues `flows` send, and however their cells are interleaved, every queue's payloads
    come out, in order and as its own. -/
def RoundTrip (flows : Set AtmFlow) : Prop :=
  ∀ (m : AtmFlow → RcsAtm) (sent : AtmFlow → List AtmPacket), ∃ cells : AtmFlow → List AtmCell,
    (∀ f, (m f).sendAll (sent f) = some (cells f)) ∧
    ∀ as : List AtmArrival, (∀ a ∈ as, a.flow ∈ flows) →
      (∀ f ∈ flows, (as.filter (·.flow = f)).map AtmArrival.cell = cells f) →
      ∃ ups, recvAll (fun _ => []) as = .ok ups ∧
        ∀ f ∈ flows, (ups.filter (·.1 = f)).map Prod.snd = (sent f).map AtmPacket.payload

end Dvb
