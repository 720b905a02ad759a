import Mathlib.Data.Finset.Card
import Nctuns.Lib.PtrChain
import Nctuns.Packet.Pbuf

/-!
# Attributes of a packet

`Packet::pkt_addinfo`, `Packet::pkt_getinfo` and the part of `Packet::copy` for them (`packet.cc`): the
pbufs of type `PT_INFO` that hang on the pbuf of a packet by `p_next`, and the slots of a name and a
value in them. A packet stands for its own pbuf, so all pbufs have addresses of one type `κ`. A walk
takes one round for each allocated pbuf at most; a walk with more rounds is reported as
`Halt.diverges`.
-/

namespace Packet

open Memory

variable {κ : Type*}

/-- The characters of the name of an information. -/
def INFONAME : Nat := 5

/-- The room for one information. -/
def Abi.INFOSIZE (t : Abi) : Nat := t.P_INFOLEN

/-- The room for its contents, behind the name and its end. -/
def Abi.INFOBODY (t : Abi) : Nat := t.INFOSIZE - INFONAME - 1

/-! ## C strings -/

/-- A string and the zero byte behind it. -/
def cstr (name : List Byte) : Nat → Byte := fun k => name.getD k 0

/-- `strncmp(p, q, n) == 0`. -/
def strneq (p q : Nat → Byte) : Nat → Bool
  | 0 => true
  | n + 1 =>
    if p 0 ≠ q 0 then false
    else if p 0 = 0 then true
    else strneq (fun k => p (k + 1)) (fun k => q (k + 1)) n

/-- `strncpy`: the bytes written. -/
def strncpy (name : List Byte) (n : Nat) : List Byte := (name ++ List.replicate n 0).take n

/-! ## Pbufs -/

/-- The members of a pbuf that the list of attributes uses, and its bytes. -/
structure Cell (κ : Type*) where
  p_next : Option κ
  /-- `p_type & PT_INFO`. -/
  isInfo : Bool
  p_len : Int
  p_dat : Int
  mem : Nat → Byte

/-- The packets, by the address of their pbuf, and all pbufs. -/
structure InfoStore (κ : Type*) where
  live : Finset κ
  alloc : Finset κ
  pbuf : κ → Cell κ

/-- `P_IGET`. -/
def iget (e : Env) : Cell κ where
  p_next := none
  isInfo := true
  p_len := 0
  p_dat := PLEN
  mem := e.junk

/-- `memcpy` of the bytes `data` to an offset. -/
def Cell.write (c : Cell κ) (offset : Int) (data : List Byte) : Cell κ :=
  { c with mem := copy c.mem offset.toNat (ofList data fun _ => 0) data.length }

variable (e : Env)

/-- `INFO_COPYIN`. -/
def Cell.copyin (c : Cell κ) (name info : List Byte) : Cell κ :=
  let p := c.p_dat - e.abi.INFOSIZE
  (({ c with p_dat := p, p_len := c.p_len + e.abi.INFOSIZE }.write p (strncpy name INFONAME)).write
    (p + INFONAME) [0]).write (p + INFONAME + 1) info

/-- The inner loop of `pkt_getinfo`: the offset of the value behind the name. -/
def Cell.slotWalk (c : Cell κ) (iname : List Byte) : Nat → Int → Int → Option Int
  | 0, _, _ => none
  | fuel + 1, p, infolen =>
    if p ≥ e.abi.p_infobuf ∧ infolen > 0 then
      if strneq (fun k => c.mem (p.toNat + k)) (cstr iname) INFONAME then some (p + INFONAME + 1)
      else c.slotWalk iname fuel (p - e.abi.INFOSIZE) (infolen - e.abi.INFOSIZE)
    else none

namespace InfoStore

/-- The loop of `pkt_getinfo`. -/
def getWalk (s : InfoStore κ) (iname : List Byte) :
    Nat → Option κ → Except Halt (Option (κ × Int))
  | _, none => .ok none
  | 0, some _ => .error .diverges
  | fuel + 1, some ipf =>
    let c := s.pbuf ipf
    if c.isInfo then
      match c.slotWalk e iname PLEN (PLEN - e.abi.INFOSIZE) c.p_len with
      | some p => .ok (some (ipf, p))
      | none => s.getWalk iname fuel c.p_next
    else s.getWalk iname fuel c.p_next

/-- `Packet::pkt_getinfo`: the pbuf and the offset of the value in it. -/
def pkt_getinfo (s : InfoStore κ) (p : κ) (iname : List Byte) : Except Halt (Option (κ × Int)) :=
  s.getWalk e iname s.alloc.card (some p)

/-- The loop of `pkt_addinfo`: a pbuf with room, or the last one. -/
def roomWalk (s : InfoStore κ) : Nat → κ → Except Halt (κ × Bool)
  | 0, _ => .error .diverges
  | fuel + 1, ipf =>
    let c := s.pbuf ipf
    if c.isInfo ∧ c.p_dat - e.abi.INFOSIZE ≥ e.abi.p_infobuf then .ok (ipf, true)
    else
      match c.p_next with
      | some next => s.roomWalk fuel next
      | none => .ok (ipf, false)

variable [DecidableEq κ]

/-- Writes the pbuf at `k`. -/
def set (s : InfoStore κ) (k : κ) (c : Cell κ) : InfoStore κ :=
  { s with pbuf := Function.update s.pbuf k c }

/-- Writes `p_next` of the pbuf at `k`. -/
def link (s : InfoStore κ) (k : κ) (p_next : Option κ) : InfoStore κ :=
  s.set k { s.pbuf k with p_next }

/-- `malloc` of a pbuf at `k`. -/
def malloc (s : InfoStore κ) (k : κ) (c : Cell κ) : InfoStore κ :=
  { s.set k c with alloc := insert k s.alloc }

/-- `Packet::pkt_addinfo`, which allocates a pbuf at `a` if it needs one. -/
def pkt_addinfo (s : InfoStore κ) (p : κ) (iname info : List Byte) (a : κ) :
    Except Halt (Int × InfoStore κ) :=
  if info.length > e.abi.INFOBODY then .ok (-1, s)
  else
    match s.pkt_getinfo e p iname with
    | .error h => .error h
    | .ok (some (ipf, offset)) => .ok (1, s.set ipf ((s.pbuf ipf).write offset info))
    | .ok none =>
      match s.roomWalk e s.alloc.card p with
      | .error h => .error h
      | .ok (ipf, true) => .ok (1, s.set ipf ((s.pbuf ipf).copyin e iname info))
      | .ok (f, false) => .ok (1, (s.malloc a ((iget e).copyin e iname info)).link f (some a))

/-- The pbuf of `Packet::Packet()`. -/
def new (s : InfoStore κ) (p : κ) : InfoStore κ :=
  { s.malloc p { p_next := none, isInfo := false, p_len := 0, p_dat := PLEN, mem := e.junk } with
    live := insert p s.live }

/-- The loop of `copy`: `pf` is the last pbuf of the copy, `spf` the next one to be copied. -/
def copyWalk (s : InfoStore κ) : Nat → κ → Option κ → List κ → Except Halt (InfoStore κ)
  | _, _, none, _ => .ok s
  | 0, _, some _, _ => .error .diverges
  | _ + 1, _, some _, [] => .error .badPointer
  | fuel + 1, pf, some spf, ipf :: addrs =>
    let c := s.pbuf spf
    ((s.malloc ipf { c with mem := Memory.copy e.junk 0 c.mem PLEN, p_dat := PLEN - c.p_len }).link pf
      (some ipf)).copyWalk fuel ipf c.p_next addrs

/-- `Packet::copy` of the packet at `p` to `q`, with the pbufs of the copy at `addrs`. -/
def copy (s : InfoStore κ) (p q : κ) (addrs : List κ) : Except Halt (InfoStore κ) :=
  ({ s.malloc q (s.pbuf p) with live := insert q s.live }).copyWalk e s.alloc.card q
    (s.pbuf p).p_next addrs

/-- No packets. -/
def empty (pbuf : κ → Cell κ) : InfoStore κ where
  live := ∅
  alloc := ∅
  pbuf := pbuf

end InfoStore

/-! ## Calls -/

/-- A call, with the addresses that it may allocate. -/
inductive InfoCall (κ : Type*) where
  | new (p : κ)
  | pkt_addinfo (p : κ) (iname info : List Byte) (a : κ)
  | copy (p q : κ) (addrs : List κ)

/-- What a name stands for: the values added last to each packet. -/
abbrev Attrs (κ : Type*) := κ → List Byte → Option (List Byte)

variable [DecidableEq κ]

/-- The pbufs after one call. -/
def InfoStore.call (s : InfoStore κ) : InfoCall κ → Except Halt (InfoStore κ)
  | .new p => .ok (s.new e p)
  | .pkt_addinfo p iname info a => Prod.snd <$> s.pkt_addinfo e p iname info a
  | .copy p q addrs => s.copy e p q addrs

/-- The attributes of each packet after one call: a map from the first `INFONAME` characters of a name
    to a value. -/
def Attrs.call (m : Attrs κ) : InfoCall κ → Attrs κ
  | .new p => Function.update m p fun _ => none
  | .pkt_addinfo p iname info _ =>
    Function.update m p (Function.update (m p) (iname.take INFONAME) (some info))
  | .copy p q _ => Function.update m q (m p)

/-- Pbufs and attributes side by side. -/
def InfoCall.run (s : InfoStore κ × Attrs κ) (c : InfoCall κ) :
    Except Halt (InfoStore κ × Attrs κ) :=
  (·, s.2.call c) <$> s.1.call e c

/-- The number of `PT_INFO` pbufs of a packet. -/
def InfoStore.infoCount (s : InfoStore κ) (p : κ) : Nat :=
  (PtrChain.walk (fun k => (s.pbuf k).p_next) s.alloc.card (s.pbuf p).p_next).length

/-- Calls are made on packets that exist, addresses that are given out are not in use, names are C
    strings, and values fit a slot. -/
def InfoAllowed (s : InfoStore κ × Attrs κ) : InfoCall κ → Prop
  | .new p => p ∉ s.1.alloc
  | .pkt_addinfo p iname info a =>
    p ∈ s.1.live ∧ a ∉ s.1.alloc ∧ 0 ∉ iname ∧ info.length ≤ e.abi.INFOBODY
  | .copy p q addrs =>
    p ∈ s.1.live ∧ (q :: addrs).Nodup ∧ (∀ a ∈ q :: addrs, a ∉ s.1.alloc) ∧
      s.1.infoCount p ≤ addrs.length

/-- The value at a pointer: its first `n` bytes. -/
def InfoStore.valueAt (s : InfoStore κ) (ptr : κ × Int) (n : Nat) : List Byte :=
  read (fun k => (s.pbuf ptr.1).mem (ptr.2.toNat + k)) n

/-- `pkt_getinfo` finds what is added to a packet: a pointer to the value of the name, or null if there
    is none. -/
def FindsInfo (s : InfoStore κ × Attrs κ) : Prop :=
  ∀ p ∈ s.1.live, ∀ iname : List Byte, 0 ∉ iname →
    match s.2 p (iname.take INFONAME) with
    | none => s.1.pkt_getinfo e p iname = .ok none
    | some info => ∃ ptr, s.1.pkt_getinfo e p iname = .ok (some ptr) ∧
        s.1.valueAt ptr info.length = info

instance (s : InfoStore κ × Attrs κ) : (c : InfoCall κ) → Decidable (InfoAllowed e s c)
  | .new _ => inferInstanceAs (Decidable (_ ∉ _))
  | .pkt_addinfo .. | .copy .. => inferInstanceAs (Decidable (_ ∧ _))

end Packet
