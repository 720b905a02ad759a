import Nctuns.Dvb.Bch
import Nctuns.Dvb.LdpcTable

/-!
# The LDPC codes of DVB-S.2

`Dvb_s2::Ldpc` (`dvb_s2_ldpc.cc`). A code is a graph of v-nodes, the bits of a block, and c-nodes, the
parity checks. `init` builds it from the address table of the parity bit accumulators; encoder and
parity check walk along it. The iterations of the decoder compute in floating point.
-/

namespace Dvb

open BitBuffer

/-- Why the process stops. -/
inductive LdpcHalt
  | assertion
  | exit
  /-- A neighbour is written behind the places of its node. -/
  | overrun
  deriving DecidableEq

/-- The bits of a normal frame. -/
abbrev DVB_FECFRAME_SIZE_NORMAL : Nat := 64800

/-- The bits of a short frame. -/
abbrev DVB_FECFRAME_SIZE_SHORT : Nat := 16200

/-- The information bits that share a row of the address table. -/
abbrev LDPC_BIT_PER_GROUP : Nat := 360

/-- `Dvb_s2::Ldpc`. The places of a node hold its neighbours, and -1 after them; only the neighbours are
    kept. -/
structure Ldpc where
  _k : Nat
  _n : Nat
  _p : Nat
  _q : Nat
  _vnode_deg : Nat
  _cnode_deg : Nat
  _acc_addr : List (List Nat)
  _cnode_from : List (List Nat)
  _vnode_from : List (List Nat)
  deriving DecidableEq

namespace Ldpc

/-- The c-nodes of a v-node. -/
def cnodes (l : Ldpc) (vnode_no : Nat) : List Nat := l._cnode_from.getD vnode_no []

/-- The next free place of a node takes a neighbour. -/
def connect (halt : LdpcHalt) (deg : Nat) (rows : List (List Nat)) (node neighbour : Nat) :
    Except LdpcHalt (List (List Nat)) :=
  if (rows.getD node []).length < deg then .ok (rows.modify node (· ++ [neighbour])) else .error halt

/-! ### `_init_decoder` -/

/-- The edges of the information bits, in the order of the loops. -/
def informationEdges (l : Ldpc) : List (Nat × Nat) :=
  (List.range (l._k / LDPC_BIT_PER_GROUP)).flatMap fun g =>
    (List.range LDPC_BIT_PER_GROUP).flatMap fun m =>
      (l._acc_addr.getD g []).map fun x => (LDPC_BIT_PER_GROUP * g + m, (x + m * l._q) % l._p)

/-- An edge between an information bit and a check. -/
def informationBit (l : Ldpc) (edge : Nat × Nat) : Except LdpcHalt Ldpc := do
  let _cnode_from ← connect .assertion l._vnode_deg l._cnode_from edge.1 edge.2
  let _vnode_from ← connect .assertion l._cnode_deg l._vnode_from edge.2 edge.1
  return { l with _cnode_from := _cnode_from, _vnode_from := _vnode_from }

/-- The neighbours of the v-node of a parity bit. Only its first edge is checked, here and at its c-node. -/
def parityVnode (l : Ldpc) (vnode_no : Nat) : Except LdpcHalt (List (List Nat)) := do
  let cnode_no := vnode_no - l._k
  let _cnode_from ← connect .assertion l._vnode_deg l._cnode_from vnode_no cnode_no
  if cnode_no ≠ l._p - 1 then connect .overrun l._vnode_deg _cnode_from vnode_no (cnode_no + 1)
  else .ok _cnode_from

/-- The check gets its parity bit, and that of the check in front. -/
def parityCnode (l : Ldpc) (vnode_no : Nat) : Except LdpcHalt (List (List Nat)) :=
  let cnode_no := vnode_no - l._k
  if vnode_no ≠ l._k then do
    let _vnode_from ← connect .assertion l._cnode_deg l._vnode_from cnode_no (vnode_no - 1)
    connect .overrun l._cnode_deg _vnode_from cnode_no vnode_no
  else connect .assertion l._cnode_deg l._vnode_from cnode_no vnode_no

/-- A parity bit is connected with its checks. -/
def parityBit (l : Ldpc) (vnode_no : Nat) : Except LdpcHalt Ldpc := do
  let _cnode_from ← l.parityVnode vnode_no
  let _vnode_from ← l.parityCnode vnode_no
  return { l with _cnode_from := _cnode_from, _vnode_from := _vnode_from }

/-- The graph: the edges of the information bits, then those of the parity bits. -/
def _init_decoder (l : Ldpc) : Except LdpcHalt Ldpc := do
  let l := { l with
    _cnode_from := List.replicate l._n []
    _vnode_from := List.replicate l._p [] }
  let l ← l.informationEdges.foldlM informationBit l
  (List.range' l._k l._p).foldlM parityBit l

/-- `init`. -/
def init (type : CodingType) : Except LdpcHalt Ldpc :=
  let _k := type.bchCoded
  let _n := if type.normal then DVB_FECFRAME_SIZE_NORMAL else DVB_FECFRAME_SIZE_SHORT
  _init_decoder {
    _k := _k
    _n := _n
    _p := _n - _k
    _q := type.ldpcQValue
    _vnode_deg := type.ldpcVnodeDeg
    _cnode_deg := type.ldpcCnodeDeg
    _acc_addr := type._acc_addr_table
    _cnode_from := []
    _vnode_from := [] }

/-! ### Encoder and decoder -/

/-- `_sys_check`. -/
def _sys_check (l : Ldpc) (n : Nat) : Except LdpcHalt Unit := if n ≠ l._n then .error .exit else .ok ()

/-- `_xor_bit` of the parity bits, which begin at the byte `_k / 8`. -/
def _xor_bit (l : Ldpc) (block : List (BitVec 8)) (i : Nat) : List (BitVec 8) :=
  block.modify (l._k / 8 + i / 8) (· ^^^ ((0x80 : BitVec 8) >>> (i % 8)))

/-- `_bit` of the parity bits. -/
def parity (l : Ldpc) (block : List (BitVec 8)) (i : Nat) : Bool := _bit (block.drop (l._k / 8)) i

/-- An information bit goes to all its accumulators. -/
def accumulate (l : Ldpc) (block : List (BitVec 8)) (vnode_no : Nat) : List (BitVec 8) :=
  if _bit block vnode_no then (l.cnodes vnode_no).foldl l._xor_bit block else block

/-- `p[i] = p[i] XOR p[i-1]`. -/
def chain (l : Ldpc) (r : List (BitVec 8) × Bool) (i : Nat) : List (BitVec 8) × Bool :=
  let block := if r.2 then l._xor_bit r.1 i else r.1
  (block, l.parity block i)

/-- `Ldpc::encoder`. -/
def encoder (l : Ldpc) (block : List (BitVec 8)) (n : Nat) : Except LdpcHalt (List (BitVec 8)) := do
  l._sys_check n
  let block := clear block (l._k / 8) (l._p / 8)
  let block := (List.range l._k).foldl l.accumulate block
  return ((List.range' 1 (l._p - 1)).foldl l.chain (block, l.parity block 0)).1

/-- The counters of the parity checks. -/
def counts (l : Ldpc) (block : List (BitVec 8)) : List Nat :=
  (List.range l._n).foldl (fun parity_check vnode_no =>
    if _bit block vnode_no then
      (l.cnodes vnode_no).foldl (fun parity_check c => parity_check.modify c (· + 1)) parity_check
    else parity_check) (List.replicate l._p 0)

/-- `Ldpc::parity_check`: the number of errors. -/
def parity_check (l : Ldpc) (block : List (BitVec 8)) (n : Nat) : Except LdpcHalt Nat := do
  l._sys_check n
  return ((l.counts block).map fun c => c % 2).sum

/-- `Ldpc::decoder`: what it returns, and the block. `iterations` is what the iterations make of a block:
    whether errors are left, and the bits with `channel_msg[i] >= 0.5`. -/
def decoder (l : Ldpc) (iterations : List (BitVec 8) → Bool × (Nat → Bool)) (block : List (BitVec 8))
    (n : Nat) : Except LdpcHalt (Int × List (BitVec 8)) := do
  l._sys_check n
  let parity_check_err ← l.parity_check block n
  if parity_check_err = 0 then return (0, block)
  let (parity_check_err, channel_msg) := iterations block
  let block := (List.range l._n).foldl (fun block i => if channel_msg i then toggle block i else block)
    (clear block 0 (n / 8))
  return (if parity_check_err then -1 else 0, block)

end Ldpc

end Dvb
