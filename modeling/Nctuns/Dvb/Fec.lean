import Nctuns.Dvb.Ldpc

/-!
# Forward error correction of DVB-S.2

`Dvb_s2_feeder` pads and scrambles a base-band frame, and puts it through the encoders and the bit
interleaver (`dvb_s2_feeder.cc`); `Dvb_s2_rcst` takes it back (`dvb_s2_rcst.cc`). The encoders and decoders
are static: the feeder sets one up when it first needs it, the receiver uses what is there.
-/

namespace Dvb

open BitBuffer

/-! ### Physical layer signalling -/

/-- `Dvb_s2_pls::modcod_type`. -/
inductive ModcodType
  | MODCOD_DUMMY_PLFRAME
  | MODCOD_QPSK_1_4 | MODCOD_QPSK_1_3 | MODCOD_QPSK_2_5 | MODCOD_QPSK_1_2 | MODCOD_QPSK_3_5 | MODCOD_QPSK_2_3
  | MODCOD_QPSK_3_4 | MODCOD_QPSK_4_5 | MODCOD_QPSK_5_6 | MODCOD_QPSK_8_9 | MODCOD_QPSK_9_10
  | MODCOD_8PSK_3_5 | MODCOD_8PSK_2_3 | MODCOD_8PSK_3_4 | MODCOD_8PSK_5_6 | MODCOD_8PSK_8_9
  | MODCOD_8PSK_9_10
  | MODCOD_16APSK_2_3 | MODCOD_16APSK_3_4 | MODCOD_16APSK_4_5 | MODCOD_16APSK_5_6 | MODCOD_16APSK_8_9
  | MODCOD_16APSK_9_10
  | MODCOD_32APSK_3_4 | MODCOD_32APSK_4_5 | MODCOD_32APSK_5_6 | MODCOD_32APSK_8_9 | MODCOD_32APSK_9_10
  | MODCOD_RESERVED
  deriving DecidableEq

/-- The two sizes of frames. -/
inductive FecFrameSize
  | FECFRAME_NORMAL
  | FECFRAME_SHORT
  deriving DecidableEq

/-- The modulations. -/
inductive ModulationType
  | MOD_DUMMY_PLFRAME
  | MOD_QPSK
  | MOD_8PSK
  | MOD_16APSK
  | MOD_32APSK
  deriving DecidableEq

/-- Why the process stops. -/
inductive FecHalt
  | assertion
  /-- The LDPC system stops it. -/
  | ldpc (halt : LdpcHalt)
  | bch (halt : BchHalt)
  /-- A decoder that nothing has set up. -/
  | null
  deriving DecidableEq

/-- `Dvb_s2_pls`. -/
structure Dvb_s2_pls where
  _modcod : ModcodType
  _fec_frame_size : FecFrameSize

namespace Dvb_s2_pls

open ModcodType FecFrameSize ModulationType CodingType

/-- The modulation of a frame. -/
def modulation_type (pls : Dvb_s2_pls) : Except FecHalt ModulationType :=
  match pls._modcod with
  | MODCOD_DUMMY_PLFRAME => .ok MOD_DUMMY_PLFRAME
  | MODCOD_QPSK_1_4 | MODCOD_QPSK_1_3 | MODCOD_QPSK_2_5 | MODCOD_QPSK_1_2 | MODCOD_QPSK_3_5
  | MODCOD_QPSK_2_3 | MODCOD_QPSK_3_4 | MODCOD_QPSK_4_5 | MODCOD_QPSK_5_6 | MODCOD_QPSK_8_9
  | MODCOD_QPSK_9_10 => .ok MOD_QPSK
  | MODCOD_8PSK_3_5 | MODCOD_8PSK_2_3 | MODCOD_8PSK_3_4 | MODCOD_8PSK_5_6 | MODCOD_8PSK_8_9
  | MODCOD_8PSK_9_10 => .ok MOD_8PSK
  | MODCOD_16APSK_2_3 | MODCOD_16APSK_3_4 | MODCOD_16APSK_4_5 | MODCOD_16APSK_5_6 | MODCOD_16APSK_8_9
  | MODCOD_16APSK_9_10 => .ok MOD_16APSK
  | MODCOD_32APSK_3_4 | MODCOD_32APSK_4_5 | MODCOD_32APSK_5_6 | MODCOD_32APSK_8_9 | MODCOD_32APSK_9_10 => .ok MOD_32APSK
  | MODCOD_RESERVED => .error .assertion

/-- The code of a frame. -/
def coding_type (pls : Dvb_s2_pls) : Except FecHalt CodingType :=
  match pls._fec_frame_size with
  | FECFRAME_NORMAL =>
    match pls._modcod with
    | MODCOD_QPSK_1_4 => .ok COD_NORMAL_1_4
    | MODCOD_QPSK_1_3 => .ok COD_NORMAL_1_3
    | MODCOD_QPSK_2_5 => .ok COD_NORMAL_2_5
    | MODCOD_QPSK_1_2 => .ok COD_NORMAL_1_2
    | MODCOD_QPSK_3_5 | MODCOD_8PSK_3_5 => .ok COD_NORMAL_3_5
    | MODCOD_QPSK_2_3 | MODCOD_8PSK_2_3 | MODCOD_16APSK_2_3 => .ok COD_NORMAL_2_3
    | MODCOD_QPSK_3_4 | MODCOD_8PSK_3_4 | MODCOD_16APSK_3_4 | MODCOD_32APSK_3_4 => .ok COD_NORMAL_3_4
    | MODCOD_QPSK_4_5 | MODCOD_16APSK_4_5 | MODCOD_32APSK_4_5 => .ok COD_NORMAL_4_5
    | MODCOD_QPSK_5_6 | MODCOD_8PSK_5_6 | MODCOD_16APSK_5_6 | MODCOD_32APSK_5_6 => .ok COD_NORMAL_5_6
    | MODCOD_QPSK_8_9 | MODCOD_8PSK_8_9 | MODCOD_16APSK_8_9 | MODCOD_32APSK_8_9 => .ok COD_NORMAL_8_9
    | MODCOD_QPSK_9_10 | MODCOD_8PSK_9_10 | MODCOD_16APSK_9_10 | MODCOD_32APSK_9_10 => .ok COD_NORMAL_9_10
    | MODCOD_DUMMY_PLFRAME | MODCOD_RESERVED => .error .assertion
  | FECFRAME_SHORT =>
    match pls._modcod with
    | MODCOD_QPSK_1_4 => .ok COD_SHORT_1_4
    | MODCOD_QPSK_1_3 => .ok COD_SHORT_1_3
    | MODCOD_QPSK_2_5 => .ok COD_SHORT_2_5
    | MODCOD_QPSK_1_2 => .ok COD_SHORT_1_2
    | MODCOD_QPSK_3_5 | MODCOD_8PSK_3_5 => .ok COD_SHORT_3_5
    | MODCOD_QPSK_2_3 | MODCOD_8PSK_2_3 | MODCOD_16APSK_2_3 => .ok COD_SHORT_2_3
    | MODCOD_QPSK_3_4 | MODCOD_8PSK_3_4 | MODCOD_16APSK_3_4 | MODCOD_32APSK_3_4 => .ok COD_SHORT_3_4
    | MODCOD_QPSK_4_5 | MODCOD_16APSK_4_5 | MODCOD_32APSK_4_5 => .ok COD_SHORT_4_5
    | MODCOD_QPSK_5_6 | MODCOD_8PSK_5_6 | MODCOD_16APSK_5_6 | MODCOD_32APSK_5_6 => .ok COD_SHORT_5_6
    | MODCOD_QPSK_8_9 | MODCOD_8PSK_8_9 | MODCOD_16APSK_8_9 | MODCOD_32APSK_8_9 => .ok COD_SHORT_8_9
    | _ => .error .assertion

end Dvb_s2_pls

/-- The size of a FEC frame, in bits. -/
def FecFrameSize.bits : FecFrameSize → Nat
  | FECFRAME_NORMAL => DVB_FECFRAME_SIZE_NORMAL
  | FECFRAME_SHORT => DVB_FECFRAME_SIZE_SHORT

/-- Its value in the enumeration. -/
def FecFrameSize.value : FecFrameSize → Nat
  | FECFRAME_NORMAL => 0
  | FECFRAME_SHORT => 1

/-! ### Scrambler and interleaver -/

/-- A round of the inner loop of `_bb_scrambler`: the bit `i` of the frame, and the register. -/
def scrambleBit (s : List (BitVec 8) × BitVec 16) (i : Nat) : List (BitVec 8) × BitVec 16 :=
  if ((s.2 &&& 0x0002) >>> 1) ^^^ (s.2 &&& 0x0001) ≠ 0 then
    (toggle s.1 i, (s.2 ||| 0x8000) >>> 1)
  else (s.1, (s.2 &&& 0x7fff) >>> 1)

/-- `Dvb_s2::_bb_scrambler`; its two loops are one over the bits. -/
def _bb_scrambler (frame : List (BitVec 8)) (frame_len : Nat) : List (BitVec 8) :=
  ((List.range (8 * frame_len)).foldl scrambleBit (frame, 0x4a80)).1

/-- `Dvb_s2_feeder::_padder`. -/
def _padder (frame : List (BitVec 8)) (content_len frame_len : Nat) : List (BitVec 8) :=
  clear frame content_len (frame_len - content_len)

/-- The inner loop of `_bit_interleaver`. -/
def interleaveRow (block : List (BitVec 8)) (m n : Nat) (interleaved_frame : List (BitVec 8)) (i : Nat) :
    List (BitVec 8) :=
  (List.range n).foldl (fun interleaved_frame j =>
    if _bit block (m * j + i) then toggle interleaved_frame (n * i + j) else interleaved_frame)
    interleaved_frame

/-- `Dvb_s2::_bit_interleaver`. -/
def _bit_interleaver (block : List (BitVec 8)) (m n : Nat) : List (BitVec 8) :=
  (List.range m).foldl (interleaveRow block m n) (List.replicate (m * n / 8) 0) ++ block.drop (m * n / 8)

/-- `Dvb_s2::_bit_deinterleaver`. -/
def _bit_deinterleaver (block : List (BitVec 8)) (m n : Nat) : List (BitVec 8) := _bit_interleaver block n m

/-- `DVB_8PSK_INTERLEAVER_COL` and its siblings; none for QPSK. -/
def ModulationType.columns : ModulationType → Except FecHalt (Option Nat)
  | MOD_QPSK => .ok none
  | MOD_8PSK => .ok (some 3)
  | MOD_16APSK => .ok (some 4)
  | MOD_32APSK => .ok (some 5)
  | MOD_DUMMY_PLFRAME => .error .assertion

/-! ### The systems -/

deriving instance DecidableEq for CodingType

/-- The column `BCH_T_ERR` of `Dvb_s2::_fec_parameter_table`. -/
def CodingType.bchTErr : CodingType → Nat
  | COD_NORMAL_2_3 | COD_NORMAL_5_6 => 10
  | COD_NORMAL_8_9 | COD_NORMAL_9_10 => 8
  | _ => 12

/-- The static members `_bch` and `_ldpc` of `Dvb_s2`. -/
structure FecSystems (F : BchMode → Type) [∀ mode, Field (F mode)] where
  _bch : (mode : BchMode) → Option (Bch mode.m mode.prim_poly (F mode))
  _ldpc : CodingType → Option Ldpc

namespace FecSystems

variable {F : BchMode → Type} [∀ mode, Field (F mode)]
  (gf : (mode : BchMode) → GaloisField mode.m mode.prim_poly (F mode)) (s : FecSystems F)

/-- Nothing is set up. -/
def empty : FecSystems F where
  _bch _ := none
  _ldpc _ := none

/-- The mode that `Dvb_s2_feeder::_bch_encoder` takes. -/
def bch_mode (size : FecFrameSize) (t : Nat) : Except FecHalt BchMode :=
  match size, t with
  | .FECFRAME_NORMAL, 12 => .ok .DVB_BCH_GF16_T12
  | .FECFRAME_NORMAL, 10 => .ok .DVB_BCH_GF16_T10
  | .FECFRAME_NORMAL, 8 => .ok .DVB_BCH_GF16_T8
  | .FECFRAME_SHORT, 12 => .ok .DVB_BCH_GF14_T12
  | _, _ => .error .assertion

/-- `Dvb_s2_feeder::_bch_encoder`. -/
def _bch_encoder (size : FecFrameSize) (_coding_type : CodingType) (bch_block : List (BitVec 8)) :
    Except FecHalt (FecSystems F × List (BitVec 8)) := do
  let mode ← bch_mode size _coding_type.bchTErr
  let bch := (s._bch mode).getD (mode.bch (gf mode))
  let bch_block ← (bch.encoder bch_block _coding_type.bchCoded).mapError .bch
  return ({ s with _bch := Function.update s._bch mode (some bch) }, bch_block)

/-- `Dvb_s2_feeder::_ldpc_encoder`. -/
def _ldpc_encoder (size : FecFrameSize) (_coding_type : CodingType) (ldpc_block : List (BitVec 8)) :
    Except FecHalt (FecSystems F × List (BitVec 8)) := do
  let ldpc ← match s._ldpc _coding_type with
    | some ldpc => .ok ldpc
    | none => (Ldpc.init _coding_type).mapError .ldpc
  let ldpc_block ← (ldpc.encoder ldpc_block size.bits).mapError .ldpc
  return ({ s with _ldpc := Function.update s._ldpc _coding_type (some ldpc) }, ldpc_block)

/-- The switch over the modulation in `_fec_encoding` and `_fec_decoding`. The rows of the interleaver are
    the value of the size in its enumeration, divided by the columns. -/
def interleaving (pls : Dvb_s2_pls) (move : List (BitVec 8) → Nat → Nat → List (BitVec 8))
    (block : List (BitVec 8)) : Except FecHalt (List (BitVec 8)) := do
  match ← (← pls.modulation_type).columns with
  | none => return block
  | some col => return move block (pls._fec_frame_size.value / col) col

/-- `Dvb_s2_feeder::_fec_encoding`. -/
def _fec_encoding (pls : Dvb_s2_pls) (_coding_type : CodingType) (base_band_frame : List (BitVec 8)) :
    Except FecHalt (FecSystems F × List (BitVec 8)) := do
  let (s, base_band_frame) ← s._bch_encoder gf pls._fec_frame_size _coding_type base_band_frame
  let (s, base_band_frame) ← s._ldpc_encoder pls._fec_frame_size _coding_type base_band_frame
  let base_band_frame ← interleaving pls _bit_interleaver base_band_frame
  return (s, base_band_frame)

variable [∀ mode, DecidableEq (F mode)]

/-- `Dvb_s2_rcst::_ldpc_decoder`: what it returns, and the block. -/
def _ldpc_decoder (iterations : List (BitVec 8) → Bool × (Nat → Bool)) (size : FecFrameSize)
    (_coding_type : CodingType) (ldpc_block : List (BitVec 8)) : Except FecHalt (Int × List (BitVec 8)) :=
  match s._ldpc _coding_type with
  | none => .error .null
  | some ldpc => (ldpc.decoder iterations ldpc_block size.bits).mapError .ldpc

/-- `Dvb_s2_rcst::_bch_decoder`. -/
def _bch_decoder (_coding_type : CodingType) (bch_block : List (BitVec 8)) :
    Except FecHalt (Int × List (BitVec 8)) :=
  match s._bch (_bch_mode_table _coding_type) with
  | none => .error .null
  | some bch => (bch.decoder bch_block _coding_type.bchCoded).mapError .bch

/-- `Dvb_s2_rcst::_fec_decoding`, which does not look at what the decoders return: the frame behind the LDPC
    decoder, and behind both. -/
def _fec_decoding (iterations : List (BitVec 8) → Bool × (Nat → Bool)) (pls : Dvb_s2_pls)
    (_coding_type : CodingType) (physical_layer_frame : List (BitVec 8)) :
    Except FecHalt (List (BitVec 8) × List (BitVec 8)) := do
  let frame ← interleaving pls _bit_deinterleaver physical_layer_frame
  let (_, ldpc) ← s._ldpc_decoder iterations pls._fec_frame_size _coding_type frame
  let (_, frame) ← s._bch_decoder _coding_type ldpc
  return (ldpc, frame)

/-- A frame on its way: as it was sent, behind the LDPC decoder, and descrambled. -/
structure Reception where
  sent : List (BitVec 8)
  ldpc : List (BitVec 8)
  frame : List (BitVec 8)

/-- A frame from `_merger_slicer` with its content, the bits that the channel flips, and what the
    iterations of the LDPC decoder make of a block. -/
structure Transmission where
  pls : Dvb_s2_pls
  base_band_frame : List (BitVec 8)
  content_len : Nat
  flips : List Nat
  iterations : List (BitVec 8) → Bool × (Nat → Bool)

/-- `_tx_handler` of the feeder: `_stream_adaptation`, and `_fec_encoding` where channel coding is on. -/
def send (on : Bool) (tx : Transmission) : Except FecHalt (FecSystems F × List (BitVec 8)) := do
  let _coding_type ← tx.pls.coding_type
  let frame := _padder tx.base_band_frame tx.content_len (_coding_type.bchUncoded / 8)
  let frame := _bb_scrambler frame (_coding_type.bchUncoded / 8)
  if on then s._fec_encoding gf tx.pls _coding_type frame else return (s, frame)

/-- `_rx_handler` of the receiver: where channel coding is on, the errors and `_fec_decoding`; then the
    scrambler. -/
def receive (on : Bool) (tx : Transmission) (sent : List (BitVec 8)) : Except FecHalt Reception := do
  let _coding_type ← tx.pls.coding_type
  let (ldpc, frame) ←
    if on then s._fec_decoding tx.iterations tx.pls _coding_type (tx.flips.foldl toggle sent)
    else .ok (sent, sent)
  return ⟨sent, ldpc, _bb_scrambler frame (_coding_type.bchUncoded / 8)⟩

/-- A frame goes through the feeder, the channel and the terminal. -/
def transmit (on : Bool) (tx : Transmission) : Except FecHalt (FecSystems F × Reception) := do
  let (s, sent) ← s.send gf on tx
  let r ← s.receive on tx sent
  return (s, r)

/-- Frames one after another. -/
def transmitAll (on : Bool) : FecSystems F → List Transmission → Except FecHalt (List Reception)
  | _, [] => .ok []
  | s, tx :: txs => do
    let (s, r) ← s.transmit gf on tx
    let rs ← transmitAll on s txs
    return r :: rs

end FecSystems

end Dvb
