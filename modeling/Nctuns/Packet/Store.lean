import Mathlib.Data.Finset.Card
import Nctuns.Packet.Pbuf

/-!
# Packets and shared pbufs

`class Packet` (`packet.h`, `packet.cc`): packets at addresses `π`, and the pbufs of shared data at
addresses `σ`, each with a cluster and a count of the packets that use it. `malloc` and `new` give out
an address that is not in use, which is an argument of the calls that allocate.
-/

namespace Packet

open Memory

/-- The bytes that a shared buffer has beyond its data and those of the packet. -/
def RESV : Nat := 10

/-- A `pbuf` of type `PT_SDATA` and its cluster of `size` bytes. -/
structure SharedBuf where
  p_len : Int
  p_refcnt : Nat
  size : Int
  p_cluster : Nat → Byte

/-- A `Packet`: its header, `PF_WITHSHARED` of its flags, and its `p_sptr`. -/
structure Pkt (σ : Type*) where
  hdr : Pbuf
  withShared : Bool
  p_sptr : Option σ

variable {π σ : Type*}

/-- The pbuf of shared data that a packet uses. -/
def Pkt.shares (t : Pkt σ) : Option σ := if t.withShared then t.p_sptr else none

/-- The packets that exist and the shared pbufs that are allocated. -/
structure Store (π σ : Type*) where
  live : Finset π
  pkt : π → Pkt σ
  alloc : Finset σ
  sbuf : σ → SharedBuf

/-- A pointer that a call returns: into the header's buffer, into a shared pbuf, or into its cluster. -/
inductive Ptr (σ : Type*) where
  | null
  | header (offset : Int)
  | sbuf (a : σ) (offset : Nat)
  | cluster (a : σ) (offset : Int)
  deriving DecidableEq, Repr

variable [DecidableEq π] [DecidableEq σ]

namespace Store

/-- No packets. -/
def empty (pkt : π → Pkt σ) (sbuf : σ → SharedBuf) : Store π σ where
  live := ∅
  pkt := pkt
  alloc := ∅
  sbuf := sbuf

/-- Writes the packet at `p`. -/
def put (s : Store π σ) (p : π) (t : Pkt σ) : Store π σ :=
  { s with live := insert p s.live, pkt := Function.update s.pkt p t }

/-- Writes the shared pbuf at `a`. -/
def setShared (s : Store π σ) (a : σ) (b : SharedBuf) : Store π σ :=
  { s with alloc := insert a s.alloc, sbuf := Function.update s.sbuf a b }

/-- `free` of the shared pbuf at `a` and of its cluster. -/
def free (s : Store π σ) (a : σ) : Store π σ := { s with alloc := s.alloc.erase a }

omit [DecidableEq π] in
/-- The shared pbuf that `p_sptr` points to. -/
def deref (s : Store π σ) (p_sptr : Option σ) : Except Halt (σ × SharedBuf) :=
  match p_sptr with
  | none => .error .badPointer
  | some a => if a ∈ s.alloc then .ok (a, s.sbuf a) else .error .badPointer

variable (e : Env)

/-- `Packet::Packet()`. -/
def new (s : Store π σ) (p : π) : Store π σ :=
  s.put p { hdr := Pbuf.new e, withShared := false, p_sptr := none }

end Store

variable (e : Env)

/-- The header of a copy: the `PLEN` bytes of the pbuf, or a cluster of its own. -/
def Pbuf.copied (s : Pbuf) : Pbuf :=
  if s.extend then
    { s with
      buf := copy e.junk (e.pcluster - s.p_len).toNat (fun k => s.buf (s.p_dat.toNat + k)) s.p_len.toNat
      p_dat := e.pcluster - s.p_len }
  else { s with buf := copy e.junk 0 s.buf PLEN, p_dat := PLEN - s.p_len }

/-- The members of a copy. -/
def Pkt.copied (t : Pkt σ) : Pkt σ := { t with hdr := t.hdr.copied e }

namespace Store

/-- `Packet::copy` of the packet at `p` to `q`. -/
def copy (s : Store π σ) (p q : π) : Except Halt (Store π σ) :=
  let t := s.pkt p
  let s := s.put q (t.copied e)
  if t.withShared then
    match s.deref t.p_sptr with
    | .ok (a, b) => .ok (s.setShared a { b with p_refcnt := u32 (b.p_refcnt + 1) })
    | .error h => .error h
  else .ok s

/-- `Packet::release` by the destructor. -/
def release (s : Store π σ) (p : π) : Except Halt (Store π σ) :=
  let t := s.pkt p
  let s' := { s with live := s.live.erase p }
  if t.withShared then
    match s.deref t.p_sptr with
    | .ok (a, b) =>
      let p_refcnt := u32 (b.p_refcnt - 1)
      .ok (if p_refcnt = 0 then s'.free a else s'.setShared a { b with p_refcnt })
    | .error h => .error h
  else .ok s'

/-- `Packet::pkt_prepend`. -/
def pkt_prepend (s : Store π σ) (p : π) (data : List Byte) : Except Halt (Store π σ) :=
  ((s.pkt p).hdr.pkt_prepend e data).map fun hdr => s.put p { s.pkt p with hdr }

/-- `Packet::pkt_seek`. -/
def pkt_seek (s : Store π σ) (p : π) (offset : Int) : Store π σ :=
  s.put p { s.pkt p with hdr := (s.pkt p).hdr.pkt_seek e offset }

/-- `P_SGET`. -/
def sget (len : Int) : SharedBuf where
  p_len := 0
  p_refcnt := 1
  size := len + e.abi.P_DATLEN + RESV
  p_cluster := e.junk

/-- `Packet::pkt_sattach`: `P_SATTACH` with the pbuf at `a`. -/
def pkt_sattach (s : Store π σ) (p : π) (len : Int) (a : σ) : Ptr σ × Store π σ :=
  if (s.pkt p).withShared then (.null, s)
  else
    (.cluster a e.abi.P_DATLEN,
      (s.setShared a (sget e len)).put p
        { s.pkt p with withShared := true, p_sptr := some a })

/-- `Packet::pkt_sdeattach`. -/
def pkt_sdeattach (s : Store π σ) (p : π) : Except Halt (Int × Store π σ) :=
  let t := s.pkt p
  if t.withShared then
    match s.deref t.p_sptr with
    | .ok (a, b) =>
      let hdr := { t.hdr with p_tlen := u32 (t.hdr.p_tlen - b.p_len) }
      if b.p_refcnt = 1 then .ok (1, (s.free a).put p { t with hdr, withShared := false })
      else
        .ok (1, (s.setShared a { b with p_refcnt := u32 (b.p_refcnt - 1) }).put p
          { hdr, withShared := false, p_sptr := none })
    | .error h => .error h
  else .ok (-1, s)

/-- `Packet::pkt_sget`. -/
def pkt_sget (s : Store π σ) (p : π) : Except Halt (Ptr σ) :=
  match (s.pkt p).p_sptr with
  | none => .ok .null
  | some a => (fun _ => .cluster a e.abi.P_DATLEN) <$> s.deref (some a)

/-- `Packet::pkt_sprepend`, which compares `data` with the start of the shared data. -/
def pkt_sprepend (s : Store π σ) (p : π) (data : Ptr σ) (len : Int) : Except Halt (Int × Store π σ) :=
  let t := s.pkt p
  if t.withShared then
    match s.deref t.p_sptr with
    | .ok (a, b) =>
      if .cluster a e.abi.P_DATLEN = data then
        .ok (1, (s.setShared a { b with p_len := b.p_len + len }).put p
          { t with hdr := { t.hdr with p_tlen := u32 (t.hdr.p_tlen + len) } })
      else .ok (-1, s)
    | .error h => .error h
  else .ok (-1, s)

end Store

/-! ## Calls -/

/-- A call, with the addresses that it allocates. -/
inductive Call (π σ : Type*) where
  | new (p : π)
  | copy (p q : π)
  | delete (p : π)
  | pkt_prepend (p : π) (data : List Byte)
  | pkt_seek (p : π) (offset : Int)
  | pkt_sattach (p : π) (len : Int) (a : σ)
  | pkt_sdeattach (p : π)
  | pkt_sprepend (p : π) (data : Ptr σ) (len : Int)

/-- The store after one call. -/
def Store.call (s : Store π σ) : Call π σ → Except Halt (Store π σ)
  | .new p => .ok (s.new e p)
  | .copy p q => s.copy e p q
  | .delete p => s.release p
  | .pkt_prepend p data => s.pkt_prepend e p data
  | .pkt_seek p offset => .ok (s.pkt_seek e p offset)
  | .pkt_sattach p len a => .ok (s.pkt_sattach e p len a).2
  | .pkt_sdeattach p => Prod.snd <$> s.pkt_sdeattach p
  | .pkt_sprepend p data len => Prod.snd <$> s.pkt_sprepend e p data len

/-- Calls are made on packets that exist, and an address that is given out is not in use. -/
def Allowed (s : Store π σ) : Call π σ → Prop
  | .new p => p ∉ s.live
  | .copy p q => p ∈ s.live ∧ q ∉ s.live
  | .delete p | .pkt_prepend p _ | .pkt_seek p _ | .pkt_sdeattach p | .pkt_sprepend p .. => p ∈ s.live
  | .pkt_sattach p _ a => p ∈ s.live ∧ a ∉ s.alloc

instance (s : Store π σ) : (c : Call π σ) → Decidable (Allowed s c)
  | .new _ => inferInstanceAs (Decidable (_ ∉ _))
  | .copy .. | .pkt_sattach .. => inferInstanceAs (Decidable (_ ∧ _))
  | .delete _ | .pkt_prepend .. | .pkt_seek .. | .pkt_sdeattach _ | .pkt_sprepend .. =>
    inferInstanceAs (Decidable (_ ∈ _))

/-! ## Accounting -/

/-- The packets that use the shared pbuf at `a`. -/
def Store.sharers (s : Store π σ) (a : σ) : Finset π := s.live.filter fun p => (s.pkt p).shares = some a

omit [DecidableEq π] [DecidableEq σ] in
/-- The number of bytes of shared data of a packet. -/
def Store.sharedLen (s : Store π σ) (t : Pkt σ) : Int := t.shares.elim 0 fun a => (s.sbuf a).p_len

/-- The counts and cached lengths are right: `p_refcnt` is the number of packets that use the pbuf, a
    pbuf is allocated while there are any, `p_sptr` is null unless the packet uses a pbuf, and
    `p_tlen` is the length of header and shared data. -/
structure Accounts (s : Store π σ) : Prop where
  refcnt : ∀ a ∈ s.alloc, (s.sbuf a).p_refcnt = (s.sharers a).card
  freed : ∀ a, a ∈ s.alloc ↔ (s.sharers a).card ≠ 0
  sptr : ∀ p ∈ s.live, (s.pkt p).p_sptr ≠ none → (s.pkt p).withShared = true
  tlen : ∀ p ∈ s.live, (s.pkt p).hdr.p_tlen = u32 ((s.pkt p).hdr.p_len + s.sharedLen (s.pkt p))

/-- What the callers have to see to: fewer than `2 ^ 32` sharers, no seek in an inline header before
    `p_dbuf`, the last sharer does not detach, and only a packet without other sharers makes the shared
    data longer. -/
def Careful (s : Store π σ) : Call π σ → Prop
  | .copy p _ => ∀ a ∈ (s.pkt p).shares, (s.sbuf a).p_refcnt + 1 < 2 ^ 32
  | .pkt_seek p offset => (s.pkt p).hdr.extend = false → e.abi.p_dbuf ≤ (s.pkt p).hdr.p_dat + offset
  | .pkt_sdeattach p => ∀ a ∈ (s.pkt p).shares, (s.sbuf a).p_refcnt ≠ 1
  | .pkt_sprepend p data len => ∀ a ∈ (s.pkt p).shares, data = .cluster a e.abi.P_DATLEN →
      (s.sbuf a).p_refcnt = 1 ∨ len % 2 ^ 32 = 0
  | .new _ | .delete _ | .pkt_prepend .. | .pkt_sattach .. => True

instance (s : Store π σ) : (c : Call π σ) → Decidable (Careful e s c)
  | .copy .. | .pkt_sdeattach _ | .pkt_sprepend .. => inferInstanceAs (Decidable (∀ _ ∈ _, _))
  | .pkt_seek .. => inferInstanceAs (Decidable (_ → _))
  | .new _ | .delete _ | .pkt_prepend .. | .pkt_sattach .. => .isTrue trivial

end Packet
