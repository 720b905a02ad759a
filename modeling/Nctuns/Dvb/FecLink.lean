import Nctuns.Dvb.Fec

/-!
# DVB-S.2 with error correction on the way

The frames that `Dvb_s2_feeder::_tx_handler` cuts (`DvbS2`) go through the encoders, the channel and the
decoders (`Fec`) as bytes, and `Dvb_s2_rcst::_demultiplexer` reads its header from the bytes that come.
-/

namespace Dvb

open Memory

/-- The frame of `len` bytes that `_merger_slicer` allocates and fills. -/
def BaseBandFrame.fill (f : BaseBandFrame) (len : Nat) (junk : Nat → Byte) : List (BitVec 8) :=
  let data := read f.data_field (f.header._data_field_length.toNat / 8)
  (read (ofList (f.header.bytes ++ f.header._crc_8 :: data) junk) len).map UInt8.toBitVec

/-- A byte of a frame. -/
def frameByte (frame : List (BitVec 8)) (i : Nat) : Byte := UInt8.ofBitVec (frame.getD i 0)

/-- A field of two bytes. -/
def frameWord (frame : List (BitVec 8)) (i : Nat) : UInt16 :=
  (frameByte frame i).toUInt16 ||| (frameByte frame (i + 1)).toUInt16 <<< 8

/-- `apply_base_band_header` and `data_field`. -/
def apply_base_band_header (frame : List (BitVec 8)) : BaseBandFrame where
  header :=
    { _input_stream_id := frameByte frame 1
      _data_field_length := frameWord frame 4
      _syncd := frameWord frame 7
      _crc_8 := frameByte frame 9 }
  data_field k := frameByte frame (header_size + k)

/-- `_demultiplexer` of the bytes of a frame. The CRC is checked over the first nine of them, constant fields
    included; it is not read again behind the check, where the CRC of the fields stands for it. -/
def Rcst.demultiplex (d : Rcst) (frame : List (BitVec 8)) : Except Abort (Rcst × List (List Byte)) :=
  let f := apply_base_band_header frame
  if f.header._crc_8 ≠ Dvb._crc_8 (read (frameByte frame) (header_size - 1)) DVB_CRC8_GEN_POLY then .ok (d, [])
  else d._demultiplexer
    { f with header := { f.header with _crc_8 := Dvb._crc_8 f.header.bytes DVB_CRC8_GEN_POLY } }

/-- Why the process stops. -/
inductive FecLinkHalt
  | link (abort : Abort)
  | fec (halt : FecHalt)
  deriving DecidableEq

/-- The two ends, and the encoders and decoders that they share. -/
structure FecLink (F : BchMode → Type) [∀ mode, Field (F mode)] where
  link : Link
  systems : FecSystems F

/-- What becomes of a frame: what `new` returned for it, the bits that the channel flips, and what the
    iterations of the LDPC decoder make of a block. -/
structure Passage where
  junk : Nat → Byte
  flips : List Nat
  iterations : List (BitVec 8) → Bool × (Nat → Bool)

/-- What happens on the link: a packet is sent, the carrier fails or comes back, a frame leaves. -/
inductive FecLinkAction
  | send (interface : UInt8) (user_packet : List Byte)
  | TurnOnLinkFailFlag
  | TurnOffLinkFailFlag
  | tx (pls : Dvb_s2_pls) (passage : Passage)

/-- The action on a link that loses nothing. -/
def FecLinkAction.lossless : FecLinkAction → Except FecHalt LinkAction
  | .send interface user_packet => .ok (.send interface user_packet)
  | .TurnOnLinkFailFlag => .ok .TurnOnLinkFailFlag
  | .TurnOffLinkFailFlag => .ok .TurnOffLinkFailFlag
  | .tx pls _ => pls.coding_type.map fun ct => .tx ct true

/-- A frame as `_stream_adaptation` gets it. -/
def BaseBandFrame.transmission (f : BaseBandFrame) (pls : Dvb_s2_pls) (passage : Passage) :
    FecSystems.Transmission where
  pls := pls
  base_band_frame := f.fill (pls._fec_frame_size.bits / 8) passage.junk
  content_len := header_size + f.header._data_field_length.toNat / 8
  flips := passage.flips
  iterations := passage.iterations

namespace FecLink

variable {F : BchMode → Type} [∀ mode, Field (F mode)]
  (gf : (mode : BchMode) → GaloisField mode.m mode.prim_poly (F mode)) (on : Bool)

/-- Empty buffers, and no encoder or decoder set up. -/
def init (number_of_input_stream : UInt8) (buffer_size : Nat) (junk : Nat → Byte) : FecLink F where
  link := .init number_of_input_stream buffer_size junk
  systems := .empty

/-- A call that sends no frame. -/
def call (s : FecLink F) (a : LinkAction) : Except FecLinkHalt (FecLink F) :=
  match s.link.step a with
  | .error e => .error (.link e)
  | .ok link => .ok { s with link }

variable [∀ mode, DecidableEq (F mode)]

/-- A frame goes through the encoders, the channel and the decoders to the receiver. -/
def transmit (s : FecLink F) (f : BaseBandFrame) (tx : FecSystems.Transmission) :
    Except FecLinkHalt (FecLink F) :=
  match s.systems.transmit gf on tx with
  | .error e => .error (.fec e)
  | .ok (systems, r) =>
    match s.link.rcst.demultiplex r.frame with
    | .error e => .error (.link e)
    | .ok (rcst, ups) =>
      let id := f.header._input_stream_id
      let flags := List.replicate (f.header._data_field_length.toNat / 8) true
      .ok {
        link := { s.link with
          rcst
          aired := Function.update s.link.aired id (s.link.aired id ++ flags)
          delivered := Function.update s.link.delivered id (s.link.delivered id ++ ups) }
        systems }

/-- One action on the link. -/
def step (s : FecLink F) : FecLinkAction → Except FecLinkHalt (FecLink F)
  | .send interface user_packet => s.call (.send interface user_packet)
  | .TurnOnLinkFailFlag => s.call .TurnOnLinkFailFlag
  | .TurnOffLinkFailFlag => s.call .TurnOffLinkFailFlag
  | .tx pls passage =>
    match pls.coding_type with
    | .error e => .error (.fec e)
    | .ok ct =>
      match s.link.feeder._merger_slicer ct with
      | .error e => .error (.link e)
      | .ok (none, feeder) => .ok { s with link := { s.link with feeder } }
      | .ok (some f, feeder) =>
        transmit gf on { s with link := { s.link with feeder } } f (f.transmission pls passage)

/-- Nothing goes wrong on the way of a frame. -/
def Clean : FecLinkAction → Prop
  | .tx _ passage => on = false ∨ passage.flips = []
  | _ => True

/-- On every stream the packets of which all bytes have left the feeder are delivered, in order, and nothing
    else is. -/
def Carries (s : FecLink F) : Prop :=
  ∀ id, s.link.delivered id =
    ((s.link.sent id).take ((s.link.aired id).length / MPEG2_TS_LEN)).map UserPacket.bytes

end FecLink

end Dvb
