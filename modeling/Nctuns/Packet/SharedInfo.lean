import Nctuns.Packet.Info
import Nctuns.Packet.Store

/-!
# Attributes of shared data

`Packet::pkt_saddinfo` and `Packet::pkt_sgetinfo` (`packet.cc`), which keep names and values in the
pbuf of shared data itself; its data is in the cluster. The pbufs are those of `Store`, each beside the
members that only these two functions use.
-/

namespace Packet

open Memory

/-- Offset of `p_sbuf`. -/
def Abi.p_sbuf (t : Abi) : Nat := t.p_infobuf + t.s_exthdr

/-- The members of a shared pbuf that its attributes use, and its bytes. -/
structure SharedCell where
  /-- `p_type & PT_SINFO`. -/
  isSInfo : Bool
  p_dat : Int
  mem : Nat → Byte

/-- The packets and shared pbufs, and the bytes stored last under a name in each of these. -/
structure SharedStore (π σ : Type*) where
  store : Store π σ
  cell : σ → SharedCell
  stored : σ → List Byte → Option (List Byte)

variable {π σ : Type*} [DecidableEq π] [DecidableEq σ] (e : Env)

namespace SharedCell

/-- The part of `P_SGET` for these members. -/
def sget : SharedCell where
  isSInfo := false
  p_dat := PLEN
  mem := e.junk

/-- Bytes are written to the shared buffer from an offset on. -/
def write (c : SharedCell) (offset : Int) (data : List Byte) : SharedCell :=
  { c with mem := copy c.mem offset.toNat (ofList data fun _ => 0) data.length }

/-- `INFO_COPYIN` but for `p_len`. -/
def copyin (c : SharedCell) (name info : List Byte) : SharedCell :=
  let p := c.p_dat - e.abi.INFOSIZE
  (({ c with isSInfo := true, p_dat := p }.write p (strncpy name INFONAME)).write (p + INFONAME)
    [0]).write (p + INFONAME + 1) info

/-- The loop of `pkt_sgetinfo`. -/
def slotWalk (c : SharedCell) (iname : List Byte) : Nat → Int → Int → Option Int
  | 0, _, _ => none
  | fuel + 1, p, infolen =>
    if p ≥ e.abi.p_sbuf ∧ infolen > 0 then
      if strneq (fun k => c.mem (p.toNat + k)) (cstr iname) INFONAME then some (p + INFONAME + 1)
      else c.slotWalk iname fuel (p - e.abi.INFOSIZE) (infolen - e.abi.INFOSIZE)
    else none

/-- There are bytes left in `p_sbuf` for a name, the zero byte behind it, and a value. -/
def Room (c : SharedCell) (info : List Byte) : Prop :=
  e.abi.p_sbuf + INFONAME + 1 + info.length ≤ c.p_dat

end SharedCell

namespace SharedStore

/-- `Packet::pkt_sgetinfo`: the pbuf and the offset of the value in it. -/
def pkt_sgetinfo (s : SharedStore π σ) (p : π) (iname : List Byte) : Except Halt (Option (σ × Int)) :=
  match (s.store.pkt p).p_sptr with
  | none => .ok none
  | some a =>
    match s.store.deref (some a) with
    | .error h => .error h
    | .ok (_, b) =>
      if (s.cell a).isSInfo then
        .ok (((s.cell a).slotWalk e iname PLEN (PLEN - e.abi.INFOSIZE) b.p_len).map fun p => (a, p))
      else .ok none

/-- The pbuf at `a` after a value was stored under a name. -/
def keep (s : SharedStore π σ) (a : σ) (c : SharedCell) (iname info : List Byte) : SharedStore π σ :=
  { s with
    cell := Function.update s.cell a c
    stored := Function.update s.stored a
      (Function.update (s.stored a) (iname.take INFONAME) (some info)) }

/-- `Packet::pkt_saddinfo`. -/
def pkt_saddinfo (s : SharedStore π σ) (p : π) (iname info : List Byte) :
    Except Halt (Int × SharedStore π σ) :=
  if info.length > e.abi.INFOSIZE then .ok (-1, s)
  else
    match s.pkt_sgetinfo e p iname with
    | .error h => .error h
    | .ok (some (a, offset)) => .ok (1, s.keep a ((s.cell a).write offset info) iname info)
    | .ok none =>
      match (s.store.pkt p).p_sptr with
      | none => .ok (-1, s)
      | some a =>
        match s.store.deref (some a) with
        | .error h => .error h
        | .ok (_, b) =>
          if (s.cell a).p_dat - e.abi.INFOSIZE ≥ e.abi.p_sbuf then
            let s := s.keep a ((s.cell a).copyin e iname info) iname info
            .ok (1, { s with
              store := s.store.setShared a { b with p_len := b.p_len + e.abi.INFOSIZE } })
          else .ok (-1, s)

/-- No packets. -/
def empty (pkt : π → Pkt σ) (sbuf : σ → SharedBuf) (cell : σ → SharedCell) : SharedStore π σ where
  store := .empty pkt sbuf
  cell := cell
  stored := fun _ _ => none

end SharedStore

/-! ## Calls -/

/-- The calls of the store, and `pkt_saddinfo` on one of its packets. -/
inductive SharedCall (π σ : Type*) where
  | base (c : Call π σ)
  | pkt_saddinfo (p : π) (iname info : List Byte)

namespace SharedStore

/-- What a call on packets does to the members of shared pbufs: `P_SGET` sets those of a new one. -/
def attach (s : SharedStore π σ) : Call π σ → SharedStore π σ
  | .pkt_sattach p _ a =>
    if (s.store.pkt p).withShared then s
    else { s with
      cell := Function.update s.cell a (.sget e)
      stored := Function.update s.stored a fun _ => none }
  | _ => s

/-- The pbufs after one call. -/
def step (s : SharedStore π σ) : SharedCall π σ → Except Halt (SharedStore π σ)
  | .base c => (fun store => { s.attach e c with store }) <$> s.store.call e c
  | .pkt_saddinfo p iname info => Prod.snd <$> s.pkt_saddinfo e p iname info

/-- Calls are made on packets that exist, addresses that are given out are not in use, and attributes
    are added to packets with shared data. -/
def Allowed (s : SharedStore π σ) : SharedCall π σ → Prop
  | .base c => Packet.Allowed s.store c
  | .pkt_saddinfo p iname _ => p ∈ s.store.live ∧ (s.store.pkt p).shares ≠ none ∧ 0 ∉ iname

instance (s : SharedStore π σ) : (c : SharedCall π σ) → Decidable (s.Allowed c)
  | .base c => inferInstanceAs (Decidable (Packet.Allowed s.store c))
  | .pkt_saddinfo .. => inferInstanceAs (Decidable (_ ∧ _))

/-- The value at a pointer: its first `n` bytes. -/
def valueAt (s : SharedStore π σ) (ptr : σ × Int) (n : Nat) : List Byte :=
  read (fun k => (s.cell ptr.1).mem (ptr.2.toNat + k)) n

/-- The attributes of the shared pbuf at `a` work for the packet at `p`: what was stored is found, what
    there is room for can be stored, and neither changes the length of the shared data. -/
structure Works (s : SharedStore π σ) (p : π) (a : σ) : Prop where
  found : ∀ iname, 0 ∉ iname →
    match s.stored a (iname.take INFONAME) with
    | none => s.pkt_sgetinfo e p iname = .ok none
    | some info => ∃ ptr, s.pkt_sgetinfo e p iname = .ok (some ptr) ∧
        s.valueAt ptr info.length = info
  added : ∀ iname info, 0 ∉ iname → info.length ≤ e.abi.INFOBODY → (s.cell a).Room e info →
    ∃ s', s.pkt_saddinfo e p iname info = .ok (1, s')
  length : ∀ iname info r s', s.pkt_saddinfo e p iname info = .ok (r, s') →
    (s'.store.sbuf a).p_len = (s.store.sbuf a).p_len

end SharedStore

end Packet
