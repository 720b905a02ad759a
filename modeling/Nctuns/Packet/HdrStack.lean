import Mathlib.Logic.Function.Basic
import Nctuns.Lib.Memory
import Nctuns.Lib.Run

/-!
# The header stack of a packet

`struct hdr_stack` (`packet.h`) with `Packet::pkt_pushproto`, `pkt_popproto` and `pkt_curproto`
(`packet.cc`), which note down how a frame is encapsulated. An answer read behind the array is `none`.
-/

namespace Packet

open Memory

/-- The depth of the stack. -/
def MAX_HDR_PROTO : Nat := 20

/-- An entry of `hdr_p`. -/
structure HdrProto where
  hdr_proto : Byte
  hdr_len : UInt32
  deriving DecidableEq, Repr

/-- `struct hdr_stack`, of whose entries the first `MAX_HDR_PROTO` exist. -/
structure HdrStack where
  hdr_p : Nat → HdrProto
  sp : Nat

namespace HdrStack

/-- The stack of a new packet, whose entries are not initialised. -/
def new (junk : Nat → HdrProto) : HdrStack where
  hdr_p := junk
  sp := 0

/-- `hdr_p[i].hdr_proto`. -/
def entry (s : HdrStack) (i : Nat) : Option Byte :=
  if i < MAX_HDR_PROTO then some (s.hdr_p i).hdr_proto else none

/-- `Packet::pkt_pushproto`. -/
def pkt_pushproto (s : HdrStack) (proto : Byte) (len : UInt32) : Int × HdrStack :=
  if s.sp ≥ MAX_HDR_PROTO then (-1, s)
  else (1, { hdr_p := Function.update s.hdr_p s.sp ⟨proto, len⟩, sp := s.sp + 1 })

/-- `Packet::pkt_popproto`. -/
def pkt_popproto (s : HdrStack) : Option Byte × HdrStack :=
  if s.sp = 0 then (some 0, s) else (s.entry s.sp, { s with sp := s.sp - 1 })

/-- `Packet::pkt_curproto`. -/
def pkt_curproto (s : HdrStack) : Option Byte := if s.sp = 0 then some 0 else s.entry s.sp

end HdrStack

/-! ## A stack of protocols -/

/-- The three calls of the header stack. -/
inductive HdrCall where
  | pkt_pushproto (proto : Byte) (len : UInt32)
  | pkt_popproto
  | pkt_curproto
  deriving DecidableEq, Repr

/-- The stack beside the protocols pushed and not popped, the last one first; `answers` has what the
    calls returned and what was on top, unless there was nothing. -/
structure HdrHistory where
  stack : HdrStack
  pushed : List Byte
  answers : List (Option Byte × Byte)

namespace HdrHistory

/-- A stack before the first call. -/
def init (junk : Nat → HdrProto) : HdrHistory where
  stack := .new junk
  pushed := []
  answers := []

/-- An answer of a call about the top. -/
def note (w : HdrHistory) (a : Option Byte) : List (Option Byte × Byte) :=
  w.answers ++ w.pushed.head?.toList.map fun proto => (a, proto)

/-- A call, with its answer beside the protocols that are pushed by then. -/
def step (w : HdrHistory) : HdrCall → Except Unit HdrHistory
  | .pkt_pushproto proto len =>
    .ok { w with stack := (w.stack.pkt_pushproto proto len).2, pushed := proto :: w.pushed }
  | .pkt_popproto =>
    let (a, stack) := w.stack.pkt_popproto
    .ok { stack := stack, pushed := w.pushed.tail, answers := w.note a }
  | .pkt_curproto => .ok { w with answers := w.note w.stack.pkt_curproto }

/-- No more pops than pushes, and no more protocols than the stack has room for. -/
def Balanced (w : HdrHistory) : HdrCall → Prop
  | .pkt_pushproto .. => w.pushed.length < MAX_HDR_PROTO
  | .pkt_popproto => w.pushed ≠ []
  | .pkt_curproto => True

/-- The stack holds what was pushed and not popped, and every answer was the protocol on top. -/
structure Exact (w : HdrHistory) : Prop where
  sp : w.stack.sp = w.pushed.length
  entry : ∀ i (h : i < w.pushed.reverse.length), w.stack.entry i = some w.pushed.reverse[i]
  answers : ∀ a ∈ w.answers, a.1 = some a.2

/-- A protocol that is asked for stands in the entry above the top as well. -/
def Repeated (w : HdrHistory) : HdrCall → Prop
  | .pkt_pushproto .. => True
  | .pkt_popproto | .pkt_curproto =>
    w.stack.sp ≠ 0 → w.stack.entry w.stack.sp = w.stack.entry (w.stack.sp - 1)

instance (w : HdrHistory) : (c : HdrCall) → Decidable (w.Balanced c)
  | .pkt_pushproto .. => inferInstanceAs (Decidable (_ < _))
  | .pkt_popproto => inferInstanceAs (Decidable (_ ≠ _))
  | .pkt_curproto => .isTrue trivial

instance (w : HdrHistory) : (c : HdrCall) → Decidable (w.Repeated c)
  | .pkt_pushproto .. => .isTrue trivial
  | .pkt_popproto | .pkt_curproto => inferInstanceAs (Decidable (_ → _))

end HdrHistory

end Packet
