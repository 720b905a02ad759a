import Nctuns.Packet.Store

/-!
# Reading a packet back

`Packet::pkt_get` and `Packet::pkt_aggregate` (`packet.cc`), which return pointers to the data of a
packet: its header and the shared data behind it.
-/

namespace Packet

open Memory

variable {π σ : Type*} [DecidableEq π] [DecidableEq σ] (e : Env)

namespace Store

omit [DecidableEq π] in
/-- `Packet::pkt_get()`. -/
def pkt_get (s : Store π σ) (p : π) : Except Halt (Ptr σ) :=
  let t := s.pkt p
  if t.hdr.p_len > 0 then .ok (.header t.hdr.p_dat)
  else if t.withShared then
    match s.deref t.p_sptr with
    -- `pf->p_dat` of the shared pbuf, not its cluster
    | .ok (a, b) => .ok (if b.p_len > 0 then .sbuf a PLEN else .null)
    | .error h => .error h
  else .ok .null

/-- `Packet::pkt_aggregate`. -/
def pkt_aggregate (s : Store π σ) (p : π) : Except Halt (Ptr σ × Store π σ) :=
  let t := s.pkt p
  if t.hdr.p_tlen = 0 then .ok (.null, s)
  else if t.withShared = false then .ok (.header t.hdr.p_dat, s)
  else
    match s.deref t.p_sptr with
    | .ok (a, b) =>
      if t.hdr.p_len = 0 then .ok (.cluster a e.abi.P_DATLEN, s)
      else if t.hdr.extend = false then
        let start := e.abi.P_DATLEN - t.hdr.p_len
        .ok (.cluster a start, s.setShared a { b with
          p_cluster := Memory.copy b.p_cluster start.toNat
            (fun k => t.hdr.buf (t.hdr.p_dat.toNat + k)) t.hdr.p_len.toNat })
      else .ok (.cluster a e.abi.P_DATLEN, s)
    | .error h => .error h

/-! ## What is read -/

omit [DecidableEq π] [DecidableEq σ] in
/-- The `n` bytes at a pointer that a call on `p` returned. The null pointer and a shared pbuf itself
    are no place of data. -/
def bytesAt (s : Store π σ) (p : π) (ptr : Ptr σ) (n : Nat) : List Byte :=
  match ptr with
  | .header offset => read (fun k => (s.pkt p).hdr.buf (offset.toNat + k)) n
  | .cluster a offset => read (fun k => (s.sbuf a).p_cluster (offset.toNat + k)) n
  | .null | .sbuf .. => []

omit [DecidableEq π] [DecidableEq σ] in
/-- The shared data of a packet. -/
def payload (s : Store π σ) (t : Pkt σ) : List Byte :=
  t.shares.elim [] fun a =>
    read (fun k => (s.sbuf a).p_cluster (e.abi.P_DATLEN + k)) (s.sbuf a).p_len.toNat

omit [DecidableEq π] [DecidableEq σ] in
/-- The data of a packet. -/
def data (s : Store π σ) (p : π) : List Byte := (s.pkt p).hdr.header ++ s.payload e (s.pkt p)

omit [DecidableEq π] [DecidableEq σ] in
/-- Where the data of a packet begins. -/
def dataStart (s : Store π σ) (p : π) : Ptr σ :=
  let t := s.pkt p
  if t.hdr.p_len > 0 then .header t.hdr.p_dat
  else t.shares.elim .null fun a => .cluster a e.abi.P_DATLEN

/-- The bytes `c` in the cluster of the shared pbuf that `p` uses. -/
def fill (s : Store π σ) (p : π) (c : Nat → Byte) : Store π σ :=
  (s.pkt p).shares.elim s fun a => s.setShared a { s.sbuf a with p_cluster := c }

end Store

/-- Whatever is written to the shared data, `pkt_aggregate` returns a pointer to `pkt_getlen()` bytes
    that are the data of the packet; and `pkt_get` returns a pointer to the first of them. -/
structure ReadsBack (s : Store π σ) (p : π) : Prop where
  aggregate : ∀ c, ∃ ptr s', (s.fill p c).pkt_aggregate e p = .ok (ptr, s') ∧
    s'.bytesAt p ptr ((s.fill p c).pkt p).hdr.p_tlen = (s.fill p c).data e p
  get : s.data e p ≠ [] → s.pkt_get p = .ok (s.dataStart e p)

omit [DecidableEq π] [DecidableEq σ] in
/-- A header in a cluster of its own has no shared pbuf beside it, and shared data has a header in front
    of it. -/
structure InOnePlace (s : Store π σ) (t : Pkt σ) : Prop where
  extended : t.hdr.extend = true → 0 < t.hdr.p_len → t.shares = none
  headed : t.hdr.p_len = 0 → s.sharedLen t = 0

/-! ## Building a packet -/

/-- The calls that build the packet at `p`. -/
def Builds (p : π) : Call π σ → Prop
  | .pkt_prepend q _ | .pkt_seek q _ | .pkt_sattach q .. | .pkt_sprepend q .. => q = p
  | .new _ | .copy .. | .delete _ | .pkt_sdeattach _ => False

/-- Shared data stays within what is attached, which an `int` can measure. -/
def WithinAttached (s : Store π σ) : Call π σ → Prop
  | .pkt_sattach _ len _ => 0 ≤ len ∧ len + e.abi.P_DATLEN + RESV < 2 ^ 31
  | .pkt_sprepend p _ len => 0 ≤ len ∧ ∀ a ∈ (s.pkt p).shares,
      (s.sbuf a).p_len + len + e.abi.P_DATLEN + RESV ≤ (s.sbuf a).size
  | _ => True

/-- No seek in an inline header ends before `p_dbuf`. -/
def SeeksInBounds (s : Store π σ) : Call π σ → Prop
  | .pkt_seek p offset => (s.pkt p).hdr.extend = false → e.abi.p_dbuf ≤ (s.pkt p).hdr.p_dat + offset
  | _ => True

instance (p : π) : (c : Call π σ) → Decidable (Builds p c)
  | .pkt_prepend .. | .pkt_seek .. | .pkt_sattach .. | .pkt_sprepend .. =>
    inferInstanceAs (Decidable (_ = _))
  | .new _ | .copy .. | .delete _ | .pkt_sdeattach _ => .isFalse id

instance (s : Store π σ) : (c : Call π σ) → Decidable (WithinAttached e s c)
  | .pkt_sattach .. => inferInstanceAs (Decidable (_ ∧ _))
  | .pkt_sprepend .. => inferInstanceAs (Decidable (_ ∧ ∀ _ ∈ _, _))
  | .new _ | .copy .. | .delete _ | .pkt_sdeattach _ | .pkt_prepend .. | .pkt_seek .. => .isTrue trivial

instance (s : Store π σ) : (c : Call π σ) → Decidable (SeeksInBounds e s c)
  | .pkt_seek .. => inferInstanceAs (Decidable (_ → _))
  | .new _ | .copy .. | .delete _ | .pkt_sdeattach _ | .pkt_prepend .. | .pkt_sattach ..
  | .pkt_sprepend .. => .isTrue trivial

end Packet
