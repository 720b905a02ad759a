import Mathlib.Algebra.Order.Ring.Int
import Nctuns.Lib.Memory

/-!
# The header area of a packet

`struct pbuf` of `packet.h` and `Packet::pkt_malloc`, `pkt_prepend` and `pkt_seek` (`packet.cc`). The
header of a packet grows downwards from the end of a buffer: the first `PLEN` bytes of the pbuf itself
or, once the header does not fit, a cluster of `pcluster` bytes with `PF_EXTEND` set. `datbuf` and the
pointer to the cluster share their place in a union of which `PF_EXTEND` tells the member in use, so
the buffer of a `Pbuf` is the pbuf without the flag and the cluster with it. Pointers into the buffer
are offsets.
-/

namespace Packet

open Memory

/-! ## The layout of `struct pbuf` -/

/-- The size of a packet buffer. -/
def PLEN : Nat := 128

/-- The two Linux ABIs for PCs. -/
inductive Abi where
  | i386
  | x86_64
  deriving DecidableEq, Repr

namespace Abi

/-- Size and alignment of a pointer. -/
def ptr : Abi → Nat
  | i386 => 4
  | x86_64 => 8

/-- Alignment of a `u_int64_t` member. -/
def u64 : Abi → Nat
  | i386 => 4
  | x86_64 => 8

/-- The first multiple of `a` from `n` on. -/
def alignUp (n a : Nat) : Nat := (n + a - 1) / a * a

/-- `sizeof(struct p_hdr)`: a pointer, a `short`, an `int` and a pointer. -/
def p_hdr (t : Abi) : Nat :=
  let ph_data := alignUp (alignUp (t.ptr + 2) 4 + 4) t.ptr
  alignUp (ph_data + t.ptr) t.ptr

/-- `sizeof(struct s_exthdr)`: a `u_int64_t`, a `u_int32_t` and a pointer. -/
def s_exthdr (t : Abi) : Nat :=
  let com3 := alignUp (8 + 4) t.ptr
  alignUp (com3 + t.ptr) (max t.ptr t.u64)

/-- What the header of the buffer leaves of it. -/
def P_INFOLEN (t : Abi) : Nat := PLEN - t.p_hdr

/-- What the extended header leaves of that. -/
def P_SDATLEN (t : Abi) : Nat := t.P_INFOLEN - t.s_exthdr

/-- The room for the data of a packet without an extended header. -/
def P_DATLEN (t : Abi) : Nat := t.P_SDATLEN - 2

/-- Offset of the union `p_data`, and of `p_infobuf` in it. -/
def p_infobuf (t : Abi) : Nat := alignUp t.p_hdr (max t.ptr t.u64)

/-- Offset of `p_flags`. -/
def p_flags (t : Abi) : Nat := t.p_infobuf + t.s_exthdr

/-- Offset of `p_dbuf`, which the union with a pointer aligns. -/
def p_dbuf (t : Abi) : Nat := alignUp (t.p_flags + 2) t.ptr

end Abi

/-! ## The header -/

/-- What the code is compiled for, the size of a cluster, and what a new buffer contains. -/
structure Env where
  abi : Abi
  pcluster : Nat
  junk : Nat → Byte

/-- Why a run ends early. -/
inductive Halt where
  /-- `exit(-1)`: "Out of cluster buffer!" -/
  | outOfCluster
  /-- A null pointer or a buffer that is not allocated is used. -/
  | badPointer
  /-- A walk along a list does not end. -/
  | diverges
  deriving DecidableEq, Repr

/-- The part of a data pbuf that describes the header. -/
structure Pbuf where
  p_len : Int
  p_dat : Int
  p_tlen : Nat
  /-- `PF_EXTEND` of `p_flags`. -/
  extend : Bool
  /-- The pbuf or the cluster. -/
  buf : Nat → Byte

/-- Conversion to `u_int32_t`. -/
def u32 (x : Int) : Nat := (x % 2 ^ 32).toNat

variable (e : Env)

/-- The pbuf of `Packet::Packet()`. -/
def Pbuf.new : Pbuf where
  p_len := 0
  p_dat := PLEN
  p_tlen := 0
  extend := false
  buf := e.junk

/-- `pkt_malloc` with a full pbuf: the header moves to a cluster. -/
def Pbuf.enlarge (s : Pbuf) : Pbuf :=
  { s with
    extend := true
    buf := copy e.junk (e.pcluster - s.p_len).toNat (fun k => s.buf (s.p_dat.toNat + k)) s.p_len.toNat
    p_dat := e.pcluster - s.p_len }

/-- `Packet::pkt_malloc`. -/
def Pbuf.pkt_malloc (s : Pbuf) (len : Int) : Except Halt Pbuf :=
  let s := if s.p_len + len > e.abi.P_DATLEN ∧ s.extend = false then s.enlarge e else s
  if s.p_dat - len < 0 ∧ s.extend = true then .error .outOfCluster
  else .ok { s with
    p_len := s.p_len + len
    p_tlen := u32 (s.p_tlen + len)
    p_dat := s.p_dat - len }

/-- `Packet::pkt_prepend` of the bytes `data`. -/
def Pbuf.pkt_prepend (s : Pbuf) (data : List Byte) : Except Halt Pbuf :=
  match s.pkt_malloc e data.length with
  | .ok s => .ok { s with buf := copy s.buf s.p_dat.toNat (ofList data fun _ => 0) data.length }
  | .error h => .error h

/-- `Packet::pkt_seek`. -/
def Pbuf.pkt_seek (s : Pbuf) (offset : Int) : Pbuf :=
  if s.extend then
    if s.p_dat + offset ≥ e.pcluster then
      { s with p_dat := e.pcluster, p_tlen := u32 (s.p_tlen - s.p_len), p_len := 0 }
    else if s.p_dat + offset < 0 then
      { s with p_len := e.pcluster, p_tlen := u32 (s.p_tlen + s.p_dat), p_dat := 0 }
    else
      { s with
        p_dat := s.p_dat + offset
        p_len := s.p_len - offset
        p_tlen := u32 (s.p_tlen - offset) }
  else
    if s.p_dat + offset ≥ PLEN then
      { s with p_dat := PLEN, p_tlen := u32 (s.p_tlen - s.p_len), p_len := 0 }
    else if s.p_dat + offset < e.abi.p_dbuf then
      { s with
        p_len := e.abi.P_DATLEN
        p_tlen := u32 (s.p_tlen + (s.p_dat - e.abi.p_dbuf))
        p_dat := e.abi.p_dbuf }
    else
      { s with
        p_dat := s.p_dat + offset
        p_len := s.p_len - offset
        p_tlen := u32 (s.p_tlen - offset) }

/-- The header: the `p_len` bytes from `p_dat` on. -/
def Pbuf.header (s : Pbuf) : List Byte := read (fun k => s.buf (s.p_dat.toNat + k)) s.p_len.toNat

/-- The end of the active buffer. -/
def Pbuf.bufEnd (s : Pbuf) : Int := if s.extend then e.pcluster else PLEN

/-! ## A stack of bytes -/

/-- A call that changes the header. -/
inductive HeaderCall where
  | pkt_prepend (data : List Byte)
  | pkt_seek (offset : Int)

/-- The pbuf after one call, beside the bytes prepended so far and not skipped. -/
def HeaderCall.run (s : Pbuf × List Byte) : HeaderCall → Except Halt (Pbuf × List Byte)
  | pkt_prepend data => (·, data ++ s.2) <$> s.1.pkt_prepend e data
  | pkt_seek offset => .ok (s.1.pkt_seek e offset, s.2.drop offset.toNat)

/-- A seek stays within the header. -/
def SeeksWithin (s : Pbuf × List Byte) : HeaderCall → Prop
  | .pkt_prepend _ => True
  | .pkt_seek offset => 0 ≤ offset ∧ offset ≤ s.1.p_len

/-- The header consists of the bytes prepended and not skipped, `p_len` is their number, and they end
    at the end of the active buffer. -/
structure HeaderExact (s : Pbuf × List Byte) : Prop where
  len : s.1.p_len = s.2.length
  ends : s.1.p_dat + s.1.p_len = s.1.bufEnd e
  header : s.1.header = s.2

/-- A seek in an inline header ends in `datbuf` or behind it. -/
def SeeksToDatbuf (s : Pbuf × List Byte) : HeaderCall → Prop
  | .pkt_prepend _ => True
  | .pkt_seek offset => s.1.extend = false → e.abi.p_dbuf ≤ s.1.p_dat + offset

instance (s : Pbuf × List Byte) : (c : HeaderCall) → Decidable (SeeksWithin s c)
  | .pkt_prepend _ => .isTrue trivial
  | .pkt_seek _ => inferInstanceAs (Decidable (_ ∧ _))

instance (s : Pbuf × List Byte) : (c : HeaderCall) → Decidable (SeeksToDatbuf e s c)
  | .pkt_prepend _ => .isTrue trivial
  | .pkt_seek _ => inferInstanceAs (Decidable (_ → _))

end Packet
