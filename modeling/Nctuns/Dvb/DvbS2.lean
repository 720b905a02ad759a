import Mathlib.Logic.Function.Basic
import Nctuns.Dvb.StreamBuffer
import Nctuns.Lib.Blocks
import Nctuns.Lib.Run

/-!
# DVB-S.2: packets in base-band frames

`Dvb_s2_feeder` (`dvb_s2_feeder.cc`) puts the transport stream packets of each input stream into a
buffer, without their sync byte and with a CRC-8 behind them, and cuts the buffers into base-band
frames; `Dvb_s2_rcst` (`dvb_s2_rcst.cc`) takes the packets out of the frames again. Padding,
scrambling and error correction, which the receiver of an error-free frame undoes, are in `Fec`; `FecLink`
puts both together.
-/

namespace Dvb

open Memory

/-- The bytes of a packet. -/
abbrev MPEG2_TS_LEN : Nat := 188
/-- The first byte of a packet. -/
abbrev SYNC_MPEG2_TS : Byte := 0x47
/-- The polynomial of CRC-8. -/
abbrev DVB_CRC8_GEN_POLY : Byte := 0xd5
/-- The longest data field of a frame. -/
abbrev DVB_MAX_DFL : UInt16 := 58112

/-- A packet that passes the assertions of `Dvb_s2_feeder::send`. -/
structure UserPacket where
  bytes : List Byte
  sync : bytes.head? = some SYNC_MPEG2_TS
  len : bytes.length = MPEG2_TS_LEN

/-- Which module's assertion stopped the program. -/
inductive Abort
  | feeder
  | rcst
  deriving DecidableEq

/-- `Dvb_s2::_crc_8`: one bit, one byte, all bytes. -/
def crcBit (gen_poly byte shift_reg j : Byte) : Byte :=
  if (shift_reg &&& 0x80) ^^^ ((byte &&& ((0x80 : Byte) >>> j)) <<< j) ≠ 0 then
    (shift_reg <<< 1) ^^^ gen_poly
  else shift_reg <<< 1

/-- One byte of a checksum. -/
def crcByte (gen_poly shift_reg byte : Byte) : Byte :=
  [0, 1, 2, 3, 4, 5, 6, 7].foldl (crcBit gen_poly byte) shift_reg

/-- The checksum of a packet or a header. -/
def _crc_8 (bit_string : List Byte) (gen_poly : Byte) : Byte :=
  bit_string.foldl (crcByte gen_poly) 0

/-- The codes by frame size and rate. -/
inductive CodingType
  | COD_NORMAL_1_4 | COD_NORMAL_1_3 | COD_NORMAL_2_5 | COD_NORMAL_1_2 | COD_NORMAL_3_5
  | COD_NORMAL_2_3 | COD_NORMAL_3_4 | COD_NORMAL_4_5 | COD_NORMAL_5_6 | COD_NORMAL_8_9
  | COD_NORMAL_9_10 | COD_SHORT_1_4 | COD_SHORT_1_3 | COD_SHORT_2_5 | COD_SHORT_1_2
  | COD_SHORT_3_5 | COD_SHORT_2_3 | COD_SHORT_3_4 | COD_SHORT_4_5 | COD_SHORT_5_6
  | COD_SHORT_8_9

/-- The column `BCH_UNCODED` of `Dvb_s2::_fec_parameter_table`, in bits. -/
def CodingType.bchUncoded : CodingType → Nat
  | COD_NORMAL_1_4 => 16008
  | COD_NORMAL_1_3 => 21408
  | COD_NORMAL_2_5 => 25728
  | COD_NORMAL_1_2 => 32208
  | COD_NORMAL_3_5 => 38688
  | COD_NORMAL_2_3 => 43040
  | COD_NORMAL_3_4 => 48408
  | COD_NORMAL_4_5 => 51648
  | COD_NORMAL_5_6 => 53840
  | COD_NORMAL_8_9 => 57472
  | COD_NORMAL_9_10 => 58192
  | COD_SHORT_1_4 => 3072
  | COD_SHORT_1_3 => 5232
  | COD_SHORT_2_5 => 6312
  | COD_SHORT_1_2 => 7032
  | COD_SHORT_3_5 => 9552
  | COD_SHORT_2_3 => 10632
  | COD_SHORT_3_4 => 11712
  | COD_SHORT_4_5 => 12432
  | COD_SHORT_5_6 => 13152
  | COD_SHORT_8_9 => 14232

/-- `Base_band_header`: the fields that are not constants of its constructor. -/
structure BaseBandHeader where
  _input_stream_id : UInt8
  _data_field_length : UInt16
  _syncd : UInt16
  _crc_8 : Byte

/-- The header's bytes in front of its CRC. -/
def BaseBandHeader.bytes (h : BaseBandHeader) : List Byte :=
  -- `_roll_off` is `RO_RESERVED`; `_user_packet_length` is 188 * 8
  [0xc0, h._input_stream_id, (1504 : UInt16).toUInt8, ((1504 : UInt16) >>> 8).toUInt8,
    h._data_field_length.toUInt8, (h._data_field_length >>> 8).toUInt8, SYNC_MPEG2_TS,
    h._syncd.toUInt8, (h._syncd >>> 8).toUInt8]

/-- `sizeof(Base_band_header)`, which is packed. -/
abbrev header_size : Nat := 10

/-- A frame: its header, and the bytes of its data field. -/
structure BaseBandFrame where
  header : BaseBandHeader
  data_field : Nat → Byte

/-- `Dvb_s2_feeder`. -/
structure Feeder where
  _number_of_input_stream : UInt8
  _input_buffer : UInt8 → StreamBuffer
  _next_input_stream : UInt8
  LinkFailFlag : UInt32

namespace Feeder

/-- A feeder with empty buffers. -/
def init (number_of_input_stream : UInt8) (buffer_size : Nat) (junk : Nat → Byte) : Feeder where
  _number_of_input_stream := number_of_input_stream
  _input_buffer := fun _ => .new buffer_size junk
  _next_input_stream := 0
  LinkFailFlag := 0

/-- `Dvb_s2_feeder::_mode_adaptation`. -/
def _mode_adaptation (d : Feeder) (interface : UInt8) (user_packet : List Byte) : Feeder × Int :=
  if (d._input_buffer interface)._free < user_packet.length then (d, -1)
  else
    let user_packet_without_sync := user_packet.drop 1
    let crc_8 := _crc_8 user_packet_without_sync DVB_CRC8_GEN_POLY
    let b := ((d._input_buffer interface).put user_packet_without_sync).1
    ({ d with _input_buffer := Function.update d._input_buffer interface (b.put [crc_8]).1 }, 0)

/-- `Dvb_s2_feeder::send`, and whether the packet is in the input buffer. -/
def send (d : Feeder) (interface : UInt8) (user_packet : List Byte) :
    Except Abort (Feeder × Option UserPacket) :=
  if d.LinkFailFlag > 0 then .ok (d, none)
  else if hs : user_packet.head? ≠ some SYNC_MPEG2_TS then .error .feeder
  else if hl : user_packet.length ≠ MPEG2_TS_LEN then .error .feeder
  else if d._number_of_input_stream ≤ interface then .error .feeder
  else
    let r := d._mode_adaptation interface user_packet
    if r.2 < 0 then .ok (r.1, none)
    else .ok (r.1, some ⟨user_packet, not_not.1 hs, not_not.1 hl⟩)

/-- The loop of `_merger_slicer`: the first interface with data, from `interface` on. -/
def waiting (d : Feeder) : Nat → UInt8 → Option UInt8
  | 0, _ => none
  | i + 1, interface =>
    if (d._input_buffer interface).content_len ≠ 0 then some interface
    else d.waiting i ((interface + 1) % d._number_of_input_stream)

/-- `Dvb_s2_feeder::_merger_slicer`: a frame for the coding type `ct`, if there is data. -/
def _merger_slicer (d : Feeder) (ct : CodingType) : Except Abort (Option BaseBandFrame × Feeder) :=
  match d.waiting d._number_of_input_stream.toNat d._next_input_stream with
  | none => .ok (none, d)
  | some interface =>
    let b := d._input_buffer interface
    let syncd := (b.content_len - 1) % MPEG2_TS_LEN * 8
    let r := b.get (ct.bchUncoded / 8 - header_size)
    let data_field_length := UInt16.ofNat (r.1.length * 8)
    if data_field_length > DVB_MAX_DFL then .error .feeder
    else
      let header : BaseBandHeader := ⟨interface, data_field_length, UInt16.ofNat syncd, 0⟩
      .ok (some
        { header := { header with _crc_8 := Dvb._crc_8 header.bytes DVB_CRC8_GEN_POLY }
          -- the padding is zero
          data_field := ofList r.1 fun _ => 0 },
        { d with
          _input_buffer := Function.update d._input_buffer interface r.2
          _next_input_stream := (interface + 1) % d._number_of_input_stream })

end Feeder

/-- `Dvb_s2_rcst`. -/
structure Rcst where
  _number_of_input_stream : UInt8
  _incomplete_up_buf : UInt8 → StreamBuffer

namespace Rcst

/-- A terminal with empty buffers. -/
def init (number_of_input_stream : UInt8) (junk : Nat → Byte) : Rcst where
  _number_of_input_stream := number_of_input_stream
  _incomplete_up_buf := fun _ => .new MPEG2_TS_LEN junk

/-- `Dvb_s2_rcst::_recv_user_packet`: what goes up. -/
def _recv_user_packet (user_packet : List Byte) : List (List Byte) :=
  if user_packet.head? ≠ some (_crc_8 (user_packet.drop 1) DVB_CRC8_GEN_POLY) then []
  else [SYNC_MPEG2_TS :: user_packet.drop 1]

/-- The loop of `_demultiplexer` over the packets behind the first one, and its last `i`. -/
def slices (data_field : Nat → Byte) (data_field_len : Nat) : Nat → Nat → List (List Byte) × Nat
  | 0, i => ([], i)
  | fuel + 1, i =>
    if i + MPEG2_TS_LEN ≤ data_field_len then
      let user_packet := data_field (i + MPEG2_TS_LEN - 1) ::
        read (fun k => data_field (i + k)) (MPEG2_TS_LEN - 1)
      let r := slices data_field data_field_len fuel (i + MPEG2_TS_LEN)
      (_recv_user_packet user_packet ++ r.1, r.2)
    else ([], i)

/-- The part of `_demultiplexer` for the first packet that ends in the frame, and the new buffer. -/
def recompose (b : StreamBuffer) (data_field : Nat → Byte) (syncd : Nat) :
    Except Abort (List (List Byte) × StreamBuffer) :=
  if b.content_len + syncd / 8 = MPEG2_TS_LEN - 1 then
    let b := (b.put (read data_field (syncd / 8 + 1))).1
    let r := b.get (MPEG2_TS_LEN - 1)
    let r' := r.2.get 1
    if r'.2.content_len ≠ 0 then .error .rcst
    else .ok (_recv_user_packet (r'.1 ++ r.1), r'.2)
  else .ok ([], b)

/-- `Dvb_s2_rcst::_demultiplexer`: the packets that go up. -/
def _demultiplexer (d : Rcst) (f : BaseBandFrame) : Except Abort (Rcst × List (List Byte)) :=
  if f.header._crc_8 ≠ Dvb._crc_8 f.header.bytes DVB_CRC8_GEN_POLY then .ok (d, [])
  else if d._number_of_input_stream ≤ f.header._input_stream_id then .error .rcst
  else
    let id := f.header._input_stream_id
    let syncd := f.header._syncd.toNat
    let data_field_len := f.header._data_field_length.toNat / 8
    match recompose (d._incomplete_up_buf id) f.data_field syncd with
    | .error e => .error e
    | .ok (first, b) =>
      let r := slices f.data_field data_field_len data_field_len (syncd / 8 + 1)
      let rest := read (fun k => f.data_field (r.2 + k)) (data_field_len - r.2)
      .ok ({ d with _incomplete_up_buf := Function.update d._incomplete_up_buf id (b.put rest).1 },
        first ++ r.1)

end Rcst

/-- The two ends, and for each stream what was sent, whether the frame of each byte that left the
    feeder was received, and what was delivered. -/
structure Link where
  feeder : Feeder
  rcst : Rcst
  sent : UInt8 → List UserPacket
  aired : UInt8 → List Bool
  delivered : UInt8 → List (List Byte)

/-- What happens on the link. -/
inductive LinkAction
  | send (interface : UInt8) (user_packet : List Byte)
  | TurnOnLinkFailFlag
  | TurnOffLinkFailFlag
  | tx (ct : CodingType) (received : Bool)

namespace Link

/-- A feeder and a terminal, and nothing sent. -/
def init (number_of_input_stream : UInt8) (buffer_size : Nat) (junk : Nat → Byte) : Link where
  feeder := .init number_of_input_stream buffer_size junk
  rcst := .init number_of_input_stream junk
  sent := fun _ => []
  aired := fun _ => []
  delivered := fun _ => []

/-- A frame on its way to the receiver, which gets it or not. -/
def transmit (l : Link) (f : BaseBandFrame) (received : Bool) : Except Abort Link :=
  let id := f.header._input_stream_id
  let flags := List.replicate (f.header._data_field_length.toNat / 8) received
  let aired := Function.update l.aired id (l.aired id ++ flags)
  if received then
    match l.rcst._demultiplexer f with
    | .error e => .error e
    | .ok (rcst, ups) =>
      .ok { l with rcst, aired, delivered := Function.update l.delivered id (l.delivered id ++ ups) }
  else .ok { l with aired }

/-- One action on the link. -/
def step (l : Link) : LinkAction → Except Abort Link
  | .send interface user_packet =>
    match l.feeder.send interface user_packet with
    | .error e => .error e
    | .ok (feeder, none) => .ok { l with feeder }
    | .ok (feeder, some p) =>
      .ok { l with feeder, sent := Function.update l.sent interface (l.sent interface ++ [p]) }
  | .TurnOnLinkFailFlag =>
    .ok { l with feeder := { l.feeder with LinkFailFlag := l.feeder.LinkFailFlag + 1 } }
  | .TurnOffLinkFailFlag =>
    .ok { l with feeder := { l.feeder with LinkFailFlag := l.feeder.LinkFailFlag - 1 } }
  -- `Dvb_s2_feeder::_tx_handler`; without data it sends a dummy frame, which the receiver drops
  | .tx ct received =>
    match l.feeder._merger_slicer ct with
    | .error e => .error e
    | .ok (none, feeder) => .ok { l with feeder }
    | .ok (some f, feeder) => { l with feeder }.transmit f received

/-- The packets of a stream all of whose bytes were in frames that were received. -/
def covered (l : Link) (id : UInt8) : List (List Byte) :=
  (Blocks.marked MPEG2_TS_LEN (l.sent id) (l.aired id)).map UserPacket.bytes

/-- On every stream only packets that were sent are delivered, in order and each at most once, and
    every packet that is covered. -/
def Delivers (l : Link) : Prop :=
  ∀ id, (l.delivered id).Sublist ((l.sent id).map UserPacket.bytes) ∧
    (l.covered id).Sublist (l.delivered id)

/-- The receiver does not get a frame while it keeps bytes that are older than a lost frame. -/
def Resynced (l : Link) : LinkAction → Prop
  | .tx ct true =>
    match l.feeder._merger_slicer ct with
    | .ok (some f, _) =>
      (l.rcst._incomplete_up_buf f.header._input_stream_id).content_len = 0 ∨
        (l.aired f.header._input_stream_id).getLast? ≠ some false
    | _ => True
  | _ => True

instance Resynced.decidable (l : Link) (a : LinkAction) : Decidable (l.Resynced a) := by
  unfold Resynced
  split
  · split <;> infer_instance
  · infer_instance

end Link

end Dvb
