import Nctuns.Packet.Info
import Nctuns.Lib.Run

/-!
# The token bucket of a DiffServ edge node

`tokenbucket.cc`: packets wait for tokens, and with `REMARK` the ones over `_maxIN` are let in as well,
but marked. A mark is an attribute of the packet, and of the name of an attribute a packet only keeps
`INFONAME` characters.
-/

open Packet (INFONAME)

namespace Ds

/-- How a call fails to return. -/
inductive BucketHalt where
  | nullDeref
  | diverges
  deriving DecidableEq, Repr

/-- What the bucket reads and writes of an IP packet: also the names of its attributes, as kept. -/
structure IpPacket where
  ep : Nat
  ip_tos : UInt8
  ip_len : UInt16
  infos : List (List Char)
  deriving DecidableEq, Repr

namespace IpPacket

variable (p : IpPacket) (iname : List Char)

/-- `pkt_getinfo(iname) != NULL`. -/
def hasInfo : Bool := p.infos.contains (iname.take INFONAME)

/-- The packet gets a mark, unless it has it. -/
def pkt_addinfo : IpPacket :=
  if p.hasInfo iname then p
  else { p with infos := iname.take INFONAME :: p.infos }

end IpPacket

/-- A packet in the bucket; `unmarked` notes down that it was let in unmarked. -/
structure Held where
  pkt : IpPacket
  unmarked : Bool
  deriving DecidableEq, Repr

/-- `Tokenbucket` with its packets from `_head` on. -/
structure Tokenbucket where
  _size : UInt32
  _tokenUnit : UInt32
  _tokens : UInt32
  _in : UInt32
  _maxIN : UInt32
  _ql : UInt32
  _maxQL : UInt32
  _remark : Bool
  _ofp_tag : List Char
  _2ndCodePoint : UInt8
  held : List Held
  deriving DecidableEq, Repr

namespace Tokenbucket

/-- The code point of the second drop precedence. -/
def phbTo2ndDSCP (phb : List Char) : UInt8 :=
  if phb = ['A', 'F', '1', '1'] then 48
  else if phb = ['A', 'F', '2', '1'] then 80
  else if phb = ['A', 'F', '3', '1'] then 112
  else if phb = ['A', 'F', '4', '1'] then 144
  else 0

/-- `sprintf(_ofp_tag, "N%dP%d", ..)`. -/
def ofp_tag (nid port : Nat) : List Char :=
  'N' :: Nat.toDigits 10 nid ++ 'P' :: Nat.toDigits 10 port

/-- The constructor, with the size and the unit in bytes, what `_ofp_tag` holds where nothing is written
    to it, and whether `REMARK` is defined. -/
def new (REMARK : Bool) (_tokenUnit _size _maxIN : UInt32) (phb : List Char) (nid port : Nat)
    (uninit : List Char) : Tokenbucket where
  _size := _size
  _tokenUnit := _tokenUnit
  _tokens := 0
  _in := 0
  _maxIN := _maxIN
  _ql := 0
  _maxQL :=
    if REMARK then
      if phb.take 2 = ['A', 'F'] then 4 * _maxIN
      else if phb.take 2 = ['B', 'E'] then 2 * _maxIN
      else _maxIN
    else _maxIN
  _remark := REMARK
  _ofp_tag := if REMARK then ofp_tag nid port else uninit
  _2ndCodePoint := if REMARK then phbTo2ndDSCP phb else 0
  held := []

variable (b : Tokenbucket)

/-- `Tokenbucket::enqueue`; `none` is -1. -/
def enqueue (pkt : IpPacket) : Option Tokenbucket :=
  if b._ql ≥ b._maxQL then none
  else if b._in ≥ b._maxIN then
    -- out of profile
    let pkt := { pkt.pkt_addinfo b._ofp_tag with ip_tos := b._2ndCodePoint }
    some { b with _ql := b._ql + 1, held := b.held ++ [⟨pkt, false⟩] }
  else some { b with _in := b._in + 1, _ql := b._ql + 1, held := b.held ++ [⟨pkt, true⟩] }

/-- `Tokenbucket::dequeue`; `none` is a null pointer. -/
def dequeue : Option (IpPacket × Tokenbucket) :=
  if b._ql = 0 then none
  else
    match b.held with
    | [] => none
    | h :: held =>
      some (h.pkt, { b with
        _ql := b._ql - 1
        held := held
        _in := if h.pkt.hasInfo b._ofp_tag then b._in else b._in - 1 })

/-- The tokens that a packet takes. -/
def ip_len (pkt : IpPacket) : UInt32 :=
  if b._remark ∧ pkt.hasInfo b._ofp_tag then 0 else pkt.ip_len.toUInt32

/-- The loop of `tryOutput`; the packets that are sent are added to `sent`. -/
def outputLoop : Nat → Tokenbucket → List IpPacket →
    Except BucketHalt (List IpPacket × Tokenbucket)
  | 0, _, _ => .error .diverges
  | fuel + 1, b, sent =>
    match b.held.head? with
    | none => .ok (sent, b)
    | some h =>
      if b.ip_len h.pkt ≤ b._tokens then
        match { b with _tokens := b._tokens - b.ip_len h.pkt }.dequeue with
        | none => .error .nullDeref
        | some (pkt, b) => outputLoop fuel b (sent ++ [pkt])
      else .ok (sent, b)

/-- Packets leave as long as the tokens cover them. -/
def tryOutput : Except BucketHalt (List IpPacket × Tokenbucket) :=
  outputLoop (b.held.length + 1) b []

/-- The first line of `getToken`. -/
def addTokens : Tokenbucket :=
  if b._tokens + b._tokenUnit ≤ b._size then { b with _tokens := b._tokens + b._tokenUnit } else b

/-- A packet arrives, or the next token. -/
inductive Event where
  | input (pkt : IpPacket)
  | getToken
  deriving DecidableEq, Repr

/-- What happens before `tryOutput`; a packet that is refused changes nothing. -/
def arrive : Event → Tokenbucket
  | .input pkt => (b.enqueue pkt).getD b
  | .getToken => b.addTokens

/-- `Tokenbucket::input` and `Tokenbucket::getToken`: the packets that are sent. -/
def call (event : Event) : Except BucketHalt (List IpPacket × Tokenbucket) :=
  match event with
  | .input pkt =>
    match b.enqueue pkt with
    | none => .ok ([], b)
    | some b => b.tryOutput
  | .getToken => b.addTokens.tryOutput

/-- The bucket after an event. -/
def step (event : Event) : Except BucketHalt Tokenbucket := (b.call event).map Prod.snd

/-! ### The account -/

/-- `_in` counts the packets that were let in unmarked, and the tokens fit into the bucket. -/
structure Accounts : Prop where
  _in_eq : b._in.toNat = b.held.countP Held.unmarked
  _ql_eq : b._ql.toNat = b.held.length
  _in_le : b._in ≤ b._ql
  _tokens_le : b._tokens ≤ b._size

/-- The tokens that are gone are those of the packets that are sent. -/
def Pays (event : Event) : Prop :=
  ∀ sent b', b.call event = .ok (sent, b') →
    b'._tokens.toNat + (sent.map fun pkt => (b.ip_len pkt).toNat).sum =
      (b.arrive event)._tokens.toNat

/-- A packet that is let in unmarked has no attribute whose name is kept as the tag is. -/
def Unmistaken (event : Event) : Prop :=
  match event with
  | .input pkt => b._ql < b._maxQL → b._in < b._maxIN → pkt.hasInfo b._ofp_tag = false
  | .getToken => True

instance (event : Event) : Decidable (b.Unmistaken event) :=
  match event with
  | .input _ => inferInstanceAs (Decidable (_ → _ → _))
  | .getToken => inferInstanceAs (Decidable True)

end Tokenbucket

end Ds
