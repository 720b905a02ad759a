import Mathlib.Logic.Function.Iterate
import Nctuns.Lib.LittleEndian
import Nctuns.Lib.Run

/-!
# WiMAX MAC PDUs

`connection.cc`: a data connection puts packets, or fragments of packets that do not fit into the
burst, into PDUs; `ConnectionReceiver` puts the fragments together again. The two checksums are those
of `library.cc`, and the loop over the PDUs of a burst is that of `recv` in `mac802_16_pmpbs.cc`.
-/

namespace Wimax

/-! ## Checksums -/

/-- The table of `library.cc` for CRC-32, one word for each byte. -/
def crc_table : List UInt32 := [
  0x00000000, 0x77073096, 0xee0e612c, 0x990951ba, 0x076dc419, 0x706af48f, 0xe963a535, 0x9e6495a3,
  0x0edb8832, 0x79dcb8a4, 0xe0d5e91e, 0x97d2d988, 0x09b64c2b, 0x7eb17cbd, 0xe7b82d07, 0x90bf1d91,
  0x1db71064, 0x6ab020f2, 0xf3b97148, 0x84be41de, 0x1adad47d, 0x6ddde4eb, 0xf4d4b551, 0x83d385c7,
  0x136c9856, 0x646ba8c0, 0xfd62f97a, 0x8a65c9ec, 0x14015c4f, 0x63066cd9, 0xfa0f3d63, 0x8d080df5,
  0x3b6e20c8, 0x4c69105e, 0xd56041e4, 0xa2677172, 0x3c03e4d1, 0x4b04d447, 0xd20d85fd, 0xa50ab56b,
  0x35b5a8fa, 0x42b2986c, 0xdbbbc9d6, 0xacbcf940, 0x32d86ce3, 0x45df5c75, 0xdcd60dcf, 0xabd13d59,
  0x26d930ac, 0x51de003a, 0xc8d75180, 0xbfd06116, 0x21b4f4b5, 0x56b3c423, 0xcfba9599, 0xb8bda50f,
  0x2802b89e, 0x5f058808, 0xc60cd9b2, 0xb10be924, 0x2f6f7c87, 0x58684c11, 0xc1611dab, 0xb6662d3d,
  0x76dc4190, 0x01db7106, 0x98d220bc, 0xefd5102a, 0x71b18589, 0x06b6b51f, 0x9fbfe4a5, 0xe8b8d433,
  0x7807c9a2, 0x0f00f934, 0x9609a88e, 0xe10e9818, 0x7f6a0dbb, 0x086d3d2d, 0x91646c97, 0xe6635c01,
  0x6b6b51f4, 0x1c6c6162, 0x856530d8, 0xf262004e, 0x6c0695ed, 0x1b01a57b, 0x8208f4c1, 0xf50fc457,
  0x65b0d9c6, 0x12b7e950, 0x8bbeb8ea, 0xfcb9887c, 0x62dd1ddf, 0x15da2d49, 0x8cd37cf3, 0xfbd44c65,
  0x4db26158, 0x3ab551ce, 0xa3bc0074, 0xd4bb30e2, 0x4adfa541, 0x3dd895d7, 0xa4d1c46d, 0xd3d6f4fb,
  0x4369e96a, 0x346ed9fc, 0xad678846, 0xda60b8d0, 0x44042d73, 0x33031de5, 0xaa0a4c5f, 0xdd0d7cc9,
  0x5005713c, 0x270241aa, 0xbe0b1010, 0xc90c2086, 0x5768b525, 0x206f85b3, 0xb966d409, 0xce61e49f,
  0x5edef90e, 0x29d9c998, 0xb0d09822, 0xc7d7a8b4, 0x59b33d17, 0x2eb40d81, 0xb7bd5c3b, 0xc0ba6cad,
  0xedb88320, 0x9abfb3b6, 0x03b6e20c, 0x74b1d29a, 0xead54739, 0x9dd277af, 0x04db2615, 0x73dc1683,
  0xe3630b12, 0x94643b84, 0x0d6d6a3e, 0x7a6a5aa8, 0xe40ecf0b, 0x9309ff9d, 0x0a00ae27, 0x7d079eb1,
  0xf00f9344, 0x8708a3d2, 0x1e01f268, 0x6906c2fe, 0xf762575d, 0x806567cb, 0x196c3671, 0x6e6b06e7,
  0xfed41b76, 0x89d32be0, 0x10da7a5a, 0x67dd4acc, 0xf9b9df6f, 0x8ebeeff9, 0x17b7be43, 0x60b08ed5,
  0xd6d6a3e8, 0xa1d1937e, 0x38d8c2c4, 0x4fdff252, 0xd1bb67f1, 0xa6bc5767, 0x3fb506dd, 0x48b2364b,
  0xd80d2bda, 0xaf0a1b4c, 0x36034af6, 0x41047a60, 0xdf60efc3, 0xa867df55, 0x316e8eef, 0x4669be79,
  0xcb61b38c, 0xbc66831a, 0x256fd2a0, 0x5268e236, 0xcc0c7795, 0xbb0b4703, 0x220216b9, 0x5505262f,
  0xc5ba3bbe, 0xb2bd0b28, 0x2bb45a92, 0x5cb36a04, 0xc2d7ffa7, 0xb5d0cf31, 0x2cd99e8b, 0x5bdeae1d,
  0x9b64c2b0, 0xec63f226, 0x756aa39c, 0x026d930a, 0x9c0906a9, 0xeb0e363f, 0x72076785, 0x05005713,
  0x95bf4a82, 0xe2b87a14, 0x7bb12bae, 0x0cb61b38, 0x92d28e9b, 0xe5d5be0d, 0x7cdcefb7, 0x0bdbdf21,
  0x86d3d2d4, 0xf1d4e242, 0x68ddb3f8, 0x1fda836e, 0x81be16cd, 0xf6b9265b, 0x6fb077e1, 0x18b74777,
  0x88085ae6, 0xff0f6a70, 0x66063bca, 0x11010b5c, 0x8f659eff, 0xf862ae69, 0x616bffd3, 0x166ccf45,
  0xa00ae278, 0xd70dd2ee, 0x4e048354, 0x3903b3c2, 0xa7672661, 0xd06016f7, 0x4969474d, 0x3e6e77db,
  0xaed16a4a, 0xd9d65adc, 0x40df0b66, 0x37d83bf0, 0xa9bcae53, 0xdebb9ec5, 0x47b2cf7f, 0x30b5ffe9,
  0xbdbdf21c, 0xcabac28a, 0x53b39330, 0x24b4a3a6, 0xbad03605, 0xcdd70693, 0x54de5729, 0x23d967bf,
  0xb3667a2e, 0xc4614ab8, 0x5d681b02, 0x2a6f2b94, 0xb40bbe37, 0xc30c8ea1, 0x5a05df1b, 0x2d02ef8d]

/-- `DO1`. -/
def crcStep (crc : UInt32) (b : UInt8) : UInt32 :=
  crc_table.getD ((crc ^^^ b.toUInt32) &&& 0xff).toNat 0 ^^^ (crc >>> 8)

/-- The CRC-32 of a buffer, complemented before the first byte and after the last one. -/
def crc32 (crc : UInt32) (buf : List UInt8) : UInt32 :=
  buf.foldl crcStep (crc ^^^ 0xffffffff) ^^^ 0xffffffff

/-- One bit of `hcs`, with the generator D^8 + D^2 + D + 1. -/
def hcsBit (crc : UInt8) : UInt8 :=
  if crc &&& 0x80 ≠ 0 then (crc <<< 1) ^^^ 0x07 else crc <<< 1

/-- One byte of `hcs`. -/
def hcsStep (crc b : UInt8) : UInt8 := Nat.iterate hcsBit 8 (crc ^^^ b)

/-- The check sequence of a header. -/
def hcs (buf : List UInt8) : UInt8 := buf.foldl hcsStep 0

/-! ## Packets -/

/-- A packet in two pieces: the data of its own buffer and those of the shared one. -/
structure Packet where
  dat : List UInt8
  sdat : List UInt8
  deriving DecidableEq, Repr

namespace Packet

/-- The bytes of both pieces. -/
def pkt_getlen (p : Packet) : Nat := p.dat.length + p.sdat.length

/-- The data in front: those of the packet's own buffer if there are any. -/
def pkt_get (p : Packet) : List UInt8 := if p.dat.length > 0 then p.dat else p.sdat

/-- The data of the shared buffer. -/
def pkt_sget (p : Packet) : List UInt8 := p.sdat

/-- The contents of the packet. -/
def bytes (p : Packet) : List UInt8 := p.dat ++ p.sdat

end Packet

/-- `n` bytes from `src + off`. -/
def memcpy (src : List UInt8) (off n : Nat) : List UInt8 := (src.drop off).take n

/-- The two classes of data connections. -/
inductive ConnClass where
  | DataConnection
  | DataConnectionEthernet
  deriving DecidableEq, Repr

/-- The bytes that a packet of the class has in its own buffer. -/
def ConnClass.split : ConnClass → Nat
  | .DataConnection => 0
  | .DataConnectionEthernet => 14

/-- A packet for a connection of the class, whose length is an `int`. -/
structure DataPacket (k : ConnClass) extends Packet where
  split : dat.length = k.split
  pos : 0 < toPacket.pkt_getlen
  max : toPacket.pkt_getlen < 2 ^ 31
  deriving DecidableEq

/-! ## The sender -/

/-- The fragment control of a PDU. -/
inductive frgStat where
  | frgNone
  | frgLast
  | frgFirst
  | frgMiddle
  deriving DecidableEq, Repr

/-- The two bits that stand for a fragment control. -/
def frgStat.code : frgStat → Nat
  | .frgNone => 0
  | .frgLast => 1
  | .frgFirst => 2
  | .frgMiddle => 3

/-- The fragment control that two bits stand for. -/
def frgStat.ofCode : Nat → frgStat
  | 0 => .frgNone
  | 1 => .frgLast
  | 2 => .frgFirst
  | _ => .frgMiddle

/-- A data connection: its queue, and the packet of which a part has been sent with the length of this
    part. -/
structure Connection (k : ConnClass) where
  CRCIndicator : Bool
  Type_ : Nat
  src_nid : UInt16
  DataCid : UInt16
  FSN : Nat
  FC : frgStat
  pduqlen : Int
  PduQ : List (DataPacket k)
  qPkt : Option (DataPacket k)
  qLen : Nat
  deriving DecidableEq

namespace Connection

variable {k : ConnClass}

/-- A connection as its constructor makes it. -/
def new (k : ConnClass) (cid src_nid : UInt16) (mesh : Bool) : Connection k where
  CRCIndicator := true
  Type_ := if mesh then 0x20 else 0x00
  src_nid := src_nid
  DataCid := cid
  FSN := 0
  FC := .frgNone
  pduqlen := 0
  PduQ := []
  qPkt := none
  qLen := 0

/-- The generic header, and in mesh mode the subheader behind it. -/
def GetHeaderLength (c : Connection k) : Nat := if c.Type_.testBit 5 then 6 + 2 else 6

/-- The room for the CRC behind a PDU. -/
def padding (c : Connection k) : Nat := if c.CRCIndicator then 4 else 0

/-- `hdr_generic` without its last byte. The bits `ht`, `ec`, `rsv1`, `eks` and `rsv2` are zero, and
    `len_msb` has three bits. -/
def hdr_generic (type : Nat) (ci : Bool) (len : Nat) (cid : UInt16) : List UInt8 :=
  [UInt8.ofNat (type % 64 * 4), UInt8.ofNat (ci.toNat * 2 + len / 256 % 8 * 32), UInt8.ofNat len,
    UInt8.ofNat (cid.toNat / 256), UInt8.ofNat cid.toNat]

/-- The type with the bit for the fragment subheader. -/
def pduType (c : Connection k) : Nat := if c.FC ≠ .frgNone then c.Type_ ||| 0x04 else c.Type_

/-- Everything in front of the payload. -/
def headers (c : Connection k) (len : Nat) : List UInt8 :=
  let hg := hdr_generic c.pduType c.CRCIndicator len c.DataCid
  hg ++ [hcs hg] ++ (if c.pduType.testBit 5 then LittleEndian.bytes 2 c.src_nid.toNat else []) ++
    (if c.pduType.testBit 2 then [UInt8.ofNat (c.FC.code + c.FSN % 8 * 4)] else [])

/-- The PDU around the payload that is in its place already, and the connection after it. -/
def BuildGenericHeader (c : Connection k) (payload : List UInt8) (len : Nat) :
    List UInt8 × Connection k :=
  let buf := c.headers len ++ payload
  let crc := if c.CRCIndicator then LittleEndian.bytes 4 (crc32 0 (memcpy buf 0 (len - 4))).toNat else []
  (buf ++ crc, { c with
    FSN := (c.FSN + 1) % 8
    FC := if c.FC = .frgLast then .frgNone else c.FC })

/-- A packet joins the end of the queue. -/
def Insert (c : Connection k) (pdu : DataPacket k) : Connection k :=
  { c with pduqlen := c.pduqlen + 1, PduQ := c.PduQ ++ [pdu] }

/-- The packets that are not yet sent to their ends. -/
def waiting (c : Connection k) : List (List UInt8) := (c.qPkt.toList ++ c.PduQ).map fun p => p.bytes

end Connection

/-! How `EncapsulateAll` of a class copies a packet: all of it, the first `n` bytes of it, all that is
left from `off`, and the next `n` bytes from `off`. -/

/-- The four copies of `EncapsulateAll`. -/
structure Copying where
  whole : Packet → List UInt8
  first : Packet → Nat → List UInt8
  last : Packet → Nat → Nat → List UInt8
  middle : Packet → Nat → Nat → List UInt8

/-- A packet is in the shared buffer only. -/
def DataConnection.copying : Copying where
  whole pkt := memcpy pkt.pkt_sget 0 pkt.pkt_getlen
  first pkt n := memcpy pkt.pkt_sget 0 n
  last pkt off n := memcpy pkt.pkt_sget off n
  middle pkt off n := memcpy pkt.pkt_sget off n

/-- The Ethernet header is in the packet's own buffer, the rest in the shared one. -/
def DataConnectionEthernet.copying : Copying where
  whole pkt := memcpy pkt.pkt_get 0 14 ++ memcpy pkt.pkt_sget 0 (pkt.pkt_getlen - 14)
  first pkt n :=
    if n ≥ 14 then memcpy pkt.pkt_get 0 14 ++ memcpy pkt.pkt_sget 0 (n - 14)
    else memcpy pkt.pkt_get 0 n
  last pkt off n :=
    if off < 14 then memcpy pkt.pkt_get off (14 - off) ++ memcpy pkt.pkt_sget 0 (n - (14 - off))
    else memcpy pkt.pkt_sget (off - 14) n
  middle pkt off n :=
    if off < 14 then
      if 14 - off > n then memcpy pkt.pkt_get off n
      else memcpy pkt.pkt_get off (14 - off) ++ memcpy pkt.pkt_sget 0 (n - (14 - off))
    else memcpy pkt.pkt_sget (off - 14) n

/-- How the class copies its packets. -/
def ConnClass.copying : ConnClass → Copying
  | .DataConnection => DataConnection.copying
  | .DataConnectionEthernet => DataConnectionEthernet.copying

namespace Connection

variable {k : ConnClass}

/-- The loop of `EncapsulateAll` over the queue, from the offset `sendlen`, an `unsigned int`. -/
def encapsulateQueue (maxlen : Nat) : List (DataPacket k) → Nat → Connection k →
    List (List UInt8) × Connection k
  | [], _, c => ([], c)
  | pkt :: rest, sendlen, c =>
    let hlen := c.GetHeaderLength
    let pdulen := hlen + pkt.pkt_getlen + c.padding
    if (sendlen + pdulen) % 2 ^ 32 ≤ maxlen then
      let r := { c with FC := .frgNone, pduqlen := c.pduqlen - 1, PduQ := rest }.BuildGenericHeader
        (k.copying.whole pkt.toPacket) pdulen
      let sendlen := (sendlen + pdulen) % 2 ^ 32
      if maxlen ≤ sendlen + 6 + c.padding then ([r.1], r.2)
      else
        let more := encapsulateQueue maxlen rest sendlen r.2
        (r.1 :: more.1, more.2)
    else
      let hlen := hlen + 1
      let pdulen := (maxlen - sendlen) % 2 ^ 32
      if hlen + c.padding ≥ pdulen then ([], c)
      else
        let qLen := pdulen - hlen - c.padding
        let r := { c with
          FC := .frgFirst
          pduqlen := c.pduqlen - 1
          PduQ := rest
          qPkt := some pkt
          qLen := qLen }.BuildGenericHeader (k.copying.first pkt.toPacket qLen) pdulen
        ([r.1], r.2)

/-- `EncapsulateAll`: the PDUs that it writes, one behind the other, to the burst of `maxlen` bytes. -/
def EncapsulateAll (c : Connection k) (maxlen : Nat) : List (List UInt8) × Connection k :=
  match c.qPkt with
  | none => encapsulateQueue maxlen c.PduQ 0 c
  | some pkt =>
    let hlen := c.GetHeaderLength + 1
    if hlen + c.padding ≥ maxlen then ([], c)
    else
      let pdulen := hlen + pkt.pkt_getlen - c.qLen + c.padding
      if pdulen ≤ maxlen then
        let r := { c with FC := .frgLast, qPkt := none, qLen := 0 }.BuildGenericHeader
          (k.copying.last pkt.toPacket c.qLen (pdulen - hlen - c.padding)) pdulen
        let more := encapsulateQueue maxlen r.2.PduQ pdulen r.2
        (r.1 :: more.1, more.2)
      else
        let n := maxlen - hlen - c.padding
        let r := { c with FC := .frgMiddle, qLen := c.qLen + n }.BuildGenericHeader
          (k.copying.middle pkt.toPacket c.qLen n) maxlen
        ([r.1], r.2)

end Connection

/-! ## The receiver -/

/-- What `ConnectionReceiver` has of a packet. -/
inductive RecvState where
  | NoData
  | NotComplete
  | Complete
  | External
  deriving DecidableEq, Repr

/-- `_buffer` holds the bytes written to it, `_maxlen` is its size. -/
structure ConnectionReceiver where
  _cid : UInt16
  _fsn : Nat
  _len : Nat
  _maxlen : Nat
  _buffer : List UInt8
  _external : List UInt8
  _state : RecvState
  deriving DecidableEq, Repr

/-- What the receiver does out of bounds. -/
inductive Fault where
  /-- A copy past the end of `_buffer`. -/
  | overrun
  /-- A negative length. -/
  | length
  deriving DecidableEq, Repr

/-- The type field of a generic header. -/
def hdrType (pdu : List UInt8) : Nat := (pdu.getD 0 0).toNat / 4
/-- The bit of a generic header for a CRC. -/
def hdrCi (pdu : List UInt8) : Bool := (pdu.getD 1 0).toNat.testBit 1
/-- The eleven bits of a generic header for the length of the PDU. -/
def GHDR_GET_LEN (pdu : List UInt8) : Nat :=
  (pdu.getD 1 0).toNat / 32 * 256 + (pdu.getD 2 0).toNat
/-- The connection identifier of a generic header. -/
def GHDR_GET_CID (pdu : List UInt8) : Nat :=
  (pdu.getD 3 0).toNat * 256 + (pdu.getD 4 0).toNat

/-- Where the fragment subheader is, if there is one: behind the mesh and the grant subheader. -/
def fragmentAt (pdu : List UInt8) : Nat :=
  6 + (if (hdrType pdu).testBit 5 then 2 else 0) + (if (hdrType pdu).testBit 0 then 2 else 0)

/-- The fragment subheader: fragment control and sequence number. -/
structure subhdr_fragment where
  fc : frgStat
  fsn : Nat
  deriving DecidableEq, Repr

/-- The fragment subheader of a PDU, if its type says that there is one. -/
def fraghdr (pdu : List UInt8) : Option subhdr_fragment :=
  if (hdrType pdu).testBit 2 then
    let b := (pdu.getD (fragmentAt pdu) 0).toNat
    some ⟨.ofCode (b % 4), b / 4 % 8⟩
  else none

/-- The fragment subheader is of one byte: neither the ARQ nor the extended type. -/
def plainFragment (pdu : List UInt8) : Bool :=
  !(hdrType pdu).testBit 4 && !(hdrType pdu).testBit 3

/-- `oh`: the bytes in front of the payload. -/
def overhead (pdu : List UInt8) : Nat :=
  fragmentAt pdu +
    (if (hdrType pdu).testBit 2 then if plainFragment pdu then 1 else 2 else 0) +
    (if (hdrType pdu).testBit 1 then if plainFragment pdu then 2 else 3 else 0)

namespace ConnectionReceiver

/-- A receiver without data. -/
def new (cid : UInt16) : ConnectionReceiver where
  _cid := cid
  _fsn := 0
  _len := 0
  _maxlen := 2048
  _buffer := []
  _external := []
  _state := .NoData

/-- The data that are there are thrown away. -/
def drop (r : ConnectionReceiver) : ConnectionReceiver :=
  if r._state ≠ .NoData then { r with _state := .NoData, _len := 0 } else r

/-- `memcpy(_buffer + at, data, n)`, which leaves `_len` at the end of the copy. -/
def store (r : ConnectionReceiver) (at_ : Nat) (data : List UInt8) (n : Nat) (state : RecvState) :
    Except Fault ConnectionReceiver :=
  if at_ + n > r._maxlen then .error .overrun
  else .ok { r with _buffer := r._buffer.take at_ ++ data, _len := at_ + n, _state := state }

/-- The check of the sequence number. -/
def checkFsn (r : ConnectionReceiver) (plain : Bool) (f : subhdr_fragment) : ConnectionReceiver :=
  if plain then { (if f.fsn ≠ (r._fsn + 1) % 8 then r.drop else r) with _fsn := f.fsn } else r

/-- The `switch` over the fragment control, for `n` bytes of payload. -/
def takeFragment (r : ConnectionReceiver) (fc : frgStat) (data : List UInt8) (n : Nat) :
    Except Fault ConnectionReceiver :=
  match fc with
  | .frgNone => r.drop.store 0 data n .Complete
  | .frgLast =>
    if r._state = .NotComplete then
      { r with _maxlen := if r._len + n > r._maxlen then r._len + n else r._maxlen }.store r._len data n
        .Complete
    else .ok r
  | .frgFirst =>
    { r.drop with _maxlen := if n > r.drop._maxlen then n else r.drop._maxlen }.store 0 data n
      .NotComplete
  | .frgMiddle => if r._state = .NotComplete then r.store r._len data n .NotComplete else .ok r

/-- `insert`: `len` is the length of the PDU without the CRC. -/
def insert (r : ConnectionReceiver) (pdu : List UInt8) (len : Nat) :
    Except Fault ConnectionReceiver :=
  let oh := overhead pdu
  if len < oh then .error .length
  else
    match fraghdr pdu with
    | some f => (r.checkFsn (plainFragment pdu) f).takeFragment f.fc (memcpy pdu oh (len - oh)) (len - oh)
    | none => .ok { r with _external := memcpy pdu oh (len - oh), _len := len - oh, _state := .External }

/-- A packet that is complete is given to the caller. -/
def getPacket (r : ConnectionReceiver) : ConnectionReceiver × List (List UInt8) :=
  match r._state with
  | .Complete => ({ r with _state := .NoData, _len := 0 }, [r._buffer.take r._len])
  | .External => ({ r with _state := .NoData, _len := 0 }, [r._external.take r._len])
  | _ => (r, [])

/-- What `recv` does with a PDU of a burst: the packets that it hands up. -/
def recv (r : ConnectionReceiver) (pdu : List UInt8) :
    Except Fault (ConnectionReceiver × List (List UInt8)) :=
  let plen := GHDR_GET_LEN pdu
  if hcs (memcpy pdu 0 6) ≠ 0 ∨ plen = 0 then .ok (r, [])
  else if hdrCi pdu ∧ plen < 4 then .error .length
  else
    let len := if hdrCi pdu then plen - 4 else plen
    if hdrCi pdu ∧ LittleEndian.bytes 4 (crc32 0 (memcpy pdu 0 len)).toNat ≠ memcpy pdu len 4 then
      .ok (r, [])
    else if GHDR_GET_CID pdu ≠ r._cid.toNat then .ok (r, [])
    else
      match r.insert pdu len with
      | .error e => .error e
      | .ok r => .ok r.getPacket

end ConnectionReceiver

/-! ## A connection and its receiver -/

/-- The two ends, the PDUs on their way, and what happened: the packets queued and returned, the PDUs
    lost in a row, and whether one was lost at all. -/
structure Link (k : ConnClass) where
  sender : Connection k
  flight : List (List UInt8)
  receiver : ConnectionReceiver
  queued : List (List UInt8)
  returned : List (List UInt8)
  gap : Nat
  lossy : Bool
  deriving DecidableEq

/-- What can happen on the link: a packet is queued, a burst is filled, a PDU on its way arrives or gets
    lost. -/
inductive LinkAction (k : ConnClass) where
  | insert (pkt : DataPacket k)
  | burst (maxlen : Nat)
  | deliver
  | lose
  deriving DecidableEq

namespace Link

variable {k : ConnClass}

/-- A new connection and a new receiver, nothing on its way. -/
def init (k : ConnClass) (cid src_nid : UInt16) (mesh : Bool) : Link k where
  sender := .new k cid src_nid mesh
  flight := []
  receiver := .new cid
  queued := []
  returned := []
  gap := 0
  lossy := false

/-- One action on the link. -/
def step (s : Link k) : LinkAction k → Except Fault (Link k)
  | .insert pkt =>
    .ok { s with sender := s.sender.Insert pkt, queued := s.queued ++ [pkt.toPacket.bytes] }
  | .burst maxlen =>
    let r := s.sender.EncapsulateAll maxlen
    .ok { s with sender := r.2, flight := s.flight ++ r.1 }
  | .deliver =>
    match s.flight with
    | [] => .ok s
    | pdu :: rest =>
      match s.receiver.recv pdu with
      | .error e => .error e
      | .ok r => .ok { s with
          flight := rest
          receiver := r.1
          returned := s.returned ++ r.2
          gap := 0 }
  | .lose =>
    match s.flight with
    | [] => .ok s
    | _ :: rest => .ok { s with flight := rest, gap := s.gap + 1, lossy := true }

/-- Fewer than 8 PDUs in a row are lost. -/
def Bounded (s : Link k) : LinkAction k → Prop
  | .lose => s.gap + 1 < 8
  | _ => True

/-- The length of a PDU fits into the 11 bits of its header, and a middle fragment that goes on with
    the open packet fits into the buffer. -/
def Fits (r : ConnectionReceiver) (pdu : List UInt8) : Prop :=
  pdu.length < 2048 ∧ ∀ f ∈ fraghdr pdu, f.fc = .frgMiddle → r._state = .NotComplete →
    f.fsn = (r._fsn + 1) % 8 →
    r._len + (pdu.length - (if hdrCi pdu then 4 else 0) - overhead pdu) ≤ r._maxlen

/-- Each PDU that arrives fits. -/
def Room (s : Link k) : LinkAction k → Prop
  | .deliver => ∀ pdu ∈ s.flight.head?, Fits s.receiver pdu
  | _ => True

/-- What is returned was queued, in that order. Without losses it is all that has been sent to its end,
    once no PDU is on its way. -/
def Delivers (s : Link k) : Prop :=
  s.returned.Sublist s.queued ∧
    (s.lossy = false → s.returned <+: s.queued ∧
      (s.flight = [] → s.returned ++ s.sender.waiting = s.queued))

instance (r : ConnectionReceiver) (pdu : List UInt8) : Decidable (Fits r pdu) :=
  inferInstanceAs (Decidable (_ ∧ _))

instance Bounded.decidable (s : Link k) : (a : LinkAction k) → Decidable (s.Bounded a)
  | .lose => inferInstanceAs (Decidable (s.gap + 1 < 8))
  | .insert _ => .isTrue trivial
  | .burst _ => .isTrue trivial
  | .deliver => .isTrue trivial

instance Room.decidable (s : Link k) : (a : LinkAction k) → Decidable (s.Room a)
  | .deliver => inferInstanceAs (Decidable (∀ pdu ∈ s.flight.head?, Fits s.receiver pdu))
  | .insert _ => .isTrue trivial
  | .burst _ => .isTrue trivial
  | .lose => .isTrue trivial

end Link

end Wimax
