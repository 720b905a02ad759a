import Nctuns.Lib.BitBuffer
import Nctuns.Lib.Trellis

/-!
# Channel coding

`channel_coding.cc` and the tables of `viterbi.h`, as far as CS-1 uses them, and the block lengths of
CS-2 and CS-3. Buffers are lists of bytes; what is read past the end of a block is part of the list.
-/

namespace Gprs

open BitBuffer

/-- An `unsigned char`. -/
abbrev UChar := BitVec 8

/-- The constraint length of the convolutional code. -/
def K : Nat := 5

/-- The states of the encoder. -/
def STATENO : Nat := 2 ^ (K - 1)

/-- `Polys[0]` and `Polys[1]`. -/
def Polys : UChar × UChar := (0x19, 0x1b)

/-! ## The convolutional encoder -/

/-- `enp0`, `enp1`: the parity of the bits of a state that a polynomial selects. -/
def enp (poly state : UChar) : UChar :=
  (List.range K).foldl (fun enp j => enp ^^^ (((poly &&& state) >>> j) &&& 1)) 0

/-- The inner loop of `cvencode`: the state, `output0` and `output1` after bit `i` of `input`. -/
def cvbit (input : UChar) (x : UChar × UChar × UChar) (i : Nat) : UChar × UChar × UChar :=
  let (state, output0, output1) := x
  let state := (state <<< 1) ||| ((input >>> i) &&& 1)
  let enp0 := enp Polys.1 state
  let enp1 := enp Polys.2 state
  if i < 4 then (state, output0 ||| enp0 <<< (2 * i) ||| enp1 <<< (2 * i + 1), output1)
  else (state, output0, output1 ||| enp0 <<< (2 * i - 8) ||| enp1 <<< (2 * i - 7))

/-- The outer loop of `cvencode`, with the byte at bit `n`. -/
def cvbyte (data : List UChar) (nbits : Nat) (x : UChar × List UChar) (n : Nat) : UChar × List UChar :=
  let (state, symbol) := x
  let (state, output0, output1) := (List.range (if nbits - n > 8 then 8 else nbits - n)).foldl
    (cvbit (data.getD (n / 8) 0)) (state, 0, 0)
  let symbol := symbol.set (n / 4) output0
  (state, if nbits - n > 4 then symbol.set (n / 4 + 1) output1 else symbol)

/-- `cvencode`: the last state, and what is written to `symbol`. -/
def cvencode (data : List UChar) (nbits : Nat) (symbol : List UChar) : UChar × List UChar :=
  (List.range ((nbits + 7) / 8)).foldl (fun x m => cvbyte data nbits x (8 * m)) (0, symbol)

/-! ## The Viterbi decoder -/

/-- The two bits that a step from a state to a state gives out; there is no such step below zero. -/
def next_state : List (List Int) :=
   [[0, 3, -1, -1, -1, -1, -1, -1, -1, -1, -1, -1, -1, -1, -1, -1],
    [-1, -1, 2, 1, -1, -1, -1, -1, -1, -1, -1, -1, -1, -1, -1, -1],
    [-1, -1, -1, -1, 0, 3, -1, -1, -1, -1, -1, -1, -1, -1, -1, -1],
    [-1, -1, -1, -1, -1, -1, 2, 1, -1, -1, -1, -1, -1, -1, -1, -1],
    [-1, -1, -1, -1, -1, -1, -1, -1, 3, 0, -1, -1, -1, -1, -1, -1],
    [-1, -1, -1, -1, -1, -1, -1, -1, -1, -1, 1, 2, -1, -1, -1, -1],
    [-1, -1, -1, -1, -1, -1, -1, -1, -1, -1, -1, -1, 3, 0, -1, -1],
    [-1, -1, -1, -1, -1, -1, -1, -1, -1, -1, -1, -1, -1, -1, 1, 2],
    [3, 0, -1, -1, -1, -1, -1, -1, -1, -1, -1, -1, -1, -1, -1, -1],
    [-1, -1, 1, 2, -1, -1, -1, -1, -1, -1, -1, -1, -1, -1, -1, -1],
    [-1, -1, -1, -1, 3, 0, -1, -1, -1, -1, -1, -1, -1, -1, -1, -1],
    [-1, -1, -1, -1, -1, -1, 1, 2, -1, -1, -1, -1, -1, -1, -1, -1],
    [-1, -1, -1, -1, -1, -1, -1, -1, 0, 3, -1, -1, -1, -1, -1, -1],
    [-1, -1, -1, -1, -1, -1, -1, -1, -1, -1, 2, 1, -1, -1, -1, -1],
    [-1, -1, -1, -1, -1, -1, -1, -1, -1, -1, -1, -1, 0, 3, -1, -1],
    [-1, -1, -1, -1, -1, -1, -1, -1, -1, -1, -1, -1, -1, -1, 2, 1]]

/-- The bit that leads from a state to a state. -/
def map : List (List Int) :=
   [[0, 1, -1, -1, -1, -1, -1, -1, -1, -1, -1, -1, -1, -1, -1, -1],
    [-1, -1, 0, 1, -1, -1, -1, -1, -1, -1, -1, -1, -1, -1, -1, -1],
    [-1, -1, -1, -1, 0, 1, -1, -1, -1, -1, -1, -1, -1, -1, -1, -1],
    [-1, -1, -1, -1, -1, -1, 0, 1, -1, -1, -1, -1, -1, -1, -1, -1],
    [-1, -1, -1, -1, -1, -1, -1, -1, 0, 1, -1, -1, -1, -1, -1, -1],
    [-1, -1, -1, -1, -1, -1, -1, -1, -1, -1, 0, 1, -1, -1, -1, -1],
    [-1, -1, -1, -1, -1, -1, -1, -1, -1, -1, -1, -1, 0, 1, -1, -1],
    [-1, -1, -1, -1, -1, -1, -1, -1, -1, -1, -1, -1, -1, -1, 0, 1],
    [0, 1, -1, -1, -1, -1, -1, -1, -1, -1, -1, -1, -1, -1, -1, -1],
    [-1, -1, 0, 1, -1, -1, -1, -1, -1, -1, -1, -1, -1, -1, -1, -1],
    [-1, -1, -1, -1, 0, 1, -1, -1, -1, -1, -1, -1, -1, -1, -1, -1],
    [-1, -1, -1, -1, -1, -1, 0, 1, -1, -1, -1, -1, -1, -1, -1, -1],
    [-1, -1, -1, -1, -1, -1, -1, -1, 0, 1, -1, -1, -1, -1, -1, -1],
    [-1, -1, -1, -1, -1, -1, -1, -1, -1, -1, 0, 1, -1, -1, -1, -1],
    [-1, -1, -1, -1, -1, -1, -1, -1, -1, -1, -1, -1, 0, 1, -1, -1],
    [-1, -1, -1, -1, -1, -1, -1, -1, -1, -1, -1, -1, -1, -1, 0, 1]]

/-- An entry of a table. -/
def entry (t : List (List Int)) (i j : Nat) : Int := (t.getD i []).getD j (-1)

/-- The loop of `HammingDist`. -/
def countOnes : Nat → UChar → UChar → UChar
  | 0, _, ret => ret
  | fuel + 1, x, ret =>
    if x > 0 then countOnes fuel (x >>> 1) (if x &&& 1 ≠ 0 then ret + 1 else ret) else ret

/-- The bits in which two bytes differ. -/
def HammingDist (a b : UChar) : UChar := countOnes 8 (a ^^^ b) 0

/-- `metric[..][n/2]` for all states. -/
abbrev Column := List UChar

/-- The body of the two inner loops of the first pass: `sym`, and `metric[..][n/2+1]` after the step
    from state `i` to state `j`. -/
def extend (metric : Column) (nsym : UChar) (x : UChar × Column) (i j : Nat) : UChar × Column :=
  let (sym, next) := x
  if entry next_state i j ≥ 0 then
    let out : UChar := BitVec.ofInt 8 (entry next_state i j)
    let newdist := metric.getD i 0 + HammingDist sym out
    let newdist2 := metric.getD i 0 + HammingDist (sym ^^^ nsym) out
    let (sym, newdist) :=
      if nsym ≠ 0 ∧ newdist2 < newdist then (sym ^^^ nsym, newdist2) else (sym, newdist)
    (sym, if next.getD j 0 > newdist then next.set j newdist else next)
  else x

/-- The steps from state `i`. -/
def extendFrom (metric : Column) (nsym : UChar) (x : UChar × Column) (i : Nat) : UChar × Column :=
  if metric.getD i 0 ≠ 0xff then
    (List.range STATENO).foldl (fun x j => extend metric nsym x i j) x
  else x

/-- One stage of the first pass, with `sym` and `nsym`. -/
def advance (metric : Column) (received : UChar × UChar) : Column :=
  ((List.range STATENO).foldl (extendFrom metric received.2)
    (received.1, List.replicate STATENO 0xff)).2

/-- Two bits of a buffer. -/
def pair (buf : List UChar) (n : Nat) : UChar := (buf.getD (n / 8) 0 >>> (n % 8)) &&& 3

/-- `sym` and `nsym` of the stages of a block with an even number of bits. -/
def stages (symbol : List UChar) (nbits : Nat) (nullsym : Option (List UChar)) :
    List (UChar × UChar) :=
  (List.range (nbits / 2)).map fun t =>
    (pair symbol (2 * t), (nullsym.map fun nullsym => pair nullsym (2 * t)).getD 0)

/-- `metric[..][0]`. -/
def column0 : Column := (List.replicate STATENO 0xff).set 0 0

/-- `metric`, a column for each stage, `metric[..][0]` first. -/
def metrics (received : List (UChar × UChar)) : List Column := received.scanl advance column0

/-- A loop over the states: the first one of least metric among those with `cond`, or `start` if no
    metric is below `0xff`. -/
def firstMin (cond : Nat → Prop) [DecidablePred cond] (metric : Column) (start : Nat) : Nat :=
  ((List.range STATENO).foldl (fun (x : UChar × Nat) k =>
    if cond k ∧ metric.getD k 0 < x.1 then (metric.getD k 0, k) else x) (0xff, start)).2

/-- `survivor[j][i]`, from the columns `i - 1` and `i` of `metric`. -/
def survivor (before metric : Column) (j : Nat) : Nat :=
  if metric.getD j 0 ≠ 0xff then firstMin (fun k => entry next_state k j ≥ 0) before 0xff else 0xff

/-- The state of least metric; `STATENO` stands for none. -/
def leastState (metric : Column) : Nat :=
  firstMin (fun i => metric.getD i 0 ≠ 0xff) metric STATENO

/-- `selects`, from the columns of `metric`, the last one first, with those selected already. -/
def selects : List Column → Nat → List Nat → List Nat
  | metric :: before :: metrics, n, l =>
    selects (before :: metrics) (survivor before metric n) (n :: l)
  | [_], n, l => n :: l
  | [], _, l => l

/-- `viterbi`: what it returns, and what it writes to `data`. -/
def viterbi (symbol : List UChar) (nbits : Nat) (nullsym : Option (List UChar)) (data : List UChar) :
    Int × List UChar :=
  let columns := (metrics (stages symbol nbits nullsym)).reverse
  let n := leastState (columns.headD [])
  if n = STATENO then (-1, data)
  else
    let selects := selects columns n []
    let data := List.replicate (nbits / 2 / 8) 0 ++ data.drop (nbits / 2 / 8)
    (0, (List.range (nbits / 2)).foldl (fun data i =>
      put data i (.ofInt 8 (entry map (selects.getD i 0) (selects.getD (i + 1) 0)))) data)

/-! ## Interleaving -/

/-- Where `interleaving` puts a bit. -/
def interleavedTo (i : Nat) : Nat :=
  let j := i / 8 + (i % 8) * 57
  if j < 228 then 2 * j + 1 else (j - 228) * 2

/-- The bits of a block in the order in which they are sent. -/
def interleaving (input output : List UChar) : List UChar :=
  (List.range 456).foldl (fun output i => put output (interleavedTo i) (get input i)) output

/-- Where `deinterleaving` puts a bit. -/
def deinterleavedTo (i : Nat) : Nat :=
  let j := if i % 2 ≠ 0 then (i - 1) / 2 else i / 2 + 228
  j / 57 + (j % 57) * 8

/-- The bits of a block in the order of the encoder. -/
def deinterleaving (input output : List UChar) : List UChar :=
  (List.range 456).foldl (fun output i => put output (deinterleavedTo i) (get input i)) output

/-! ## CS-1 -/

/-- The generator polynomial of the fire code. -/
def FirePoly : List UChar := [0x80, 0x04, 0x82, 0x00, 0x09]

/-- The register of `firecode` after one more bit. -/
def fireshift (reg : List UChar) (b : UChar) : List UChar :=
  let carry (n : Nat) : UChar := (reg.getD n 0 >>> 7) &&& 1
  let reg := [(reg.getD 0 0 <<< 1) ||| carry 1, (reg.getD 1 0 <<< 1) ||| carry 2,
    (reg.getD 2 0 <<< 1) ||| carry 3, (reg.getD 3 0 <<< 1) ||| carry 4, (reg.getD 4 0 <<< 1) ||| b]
  if reg.getD 0 0 &&& 0x80 ≠ 0 then List.zipWith (· ^^^ ·) reg FirePoly else reg

/-- What `firecode` writes to `reg`. -/
def firecode (buf : List UChar) (nbits : Nat) : List UChar :=
  (List.range nbits).foldl (fun reg n => fireshift reg (get buf n)) (List.replicate 5 0)

/-- The bytes of a block of the first coding scheme. -/
def CS1_BLKSIZE : Nat := 23

/-- `CS1_encode`: what it writes to `symbol`. -/
def CS1_encode (data : List UChar) : List UChar :=
  let buf := data.take 57
  let buf := buf.take 23 ++ firecode data 184 ++ buf.drop 28
  interleaving (cvencode buf 228 (List.replicate 57 0)).2 (List.replicate 57 0)

/-- `CS1_decode`: what it returns, and what it writes to `data`. -/
def CS1_decode (symbol : List UChar) : Int × List UChar :=
  let buf2 := (viterbi (deinterleaving symbol (List.replicate 57 0)) 456 none (List.replicate 57 0)).2
  let data := buf2.take (CS1_BLKSIZE + 1)
  if firecode buf2 184 ≠ (buf2.drop 23).take 5 then (-1, data) else (0, data)

/-! ## The nearest message -/

/-- The symbols that the second coding scheme leaves out. -/
def CS2_NullSyms : List UChar :=
  [0x0, 0x80, 0x88, 0x88, 0x8, 0x88, 0x88, 0x88, 0x88, 0x88, 0x8, 0x88,
   0x88, 0x88, 0x88, 0x88, 0x8, 0x88, 0x88, 0x88, 0x88, 0x88, 0x8, 0x88,
   0x88, 0x88, 0x88, 0x88, 0x8, 0x88, 0x88, 0x88, 0x88, 0x88, 0x8, 0x88,
   0x88, 0x88, 0x88, 0x88, 0x8, 0x88, 0x88, 0x88, 0x88, 0x88, 0x8, 0x88,
   0x88, 0x88, 0x88, 0x88, 0x8, 0x88, 0x88, 0x88, 0x88, 0x88, 0x8, 0x88,
   0x88, 0x88, 0x88, 0x88, 0x8, 0x88, 0x88, 0x88, 0x88, 0x88, 0x8, 0x88,
   0x88, 0x8]

/-- The symbols that the third coding scheme leaves out. -/
def CS3_NullSyms : List UChar :=
  [0x0, 0x80, 0xa2, 0x28, 0x8a, 0xa2, 0x28, 0x8a, 0xa2, 0x28, 0x8a, 0xa2,
   0x28, 0x8a, 0xa2, 0x28, 0x8a, 0xa2, 0x28, 0x8a, 0xa2, 0x28, 0x8a, 0xa2,
   0x28, 0x8a, 0xa2, 0x28, 0x8a, 0xa2, 0x28, 0x8a, 0xa2, 0x28, 0x8a, 0xa2,
   0x28, 0x8a, 0xa2, 0x28, 0x8a, 0xa2, 0x28, 0x8a, 0xa2, 0x28, 0x8a, 0xa2,
   0x28, 0x8a, 0xa2, 0x28, 0x8a, 0xa2, 0x28, 0x8a, 0xa2, 0x28, 0x8a, 0xa2,
   0x28, 0x8a, 0xa2, 0x28, 0x8a, 0xa2, 0x28, 0x8a, 0xa2, 0x28, 0x8a, 0xa2,
   0x28, 0x8a, 0xa2, 0x28, 0x8a, 0xa2, 0x28, 0x8a, 0xa2, 0x28, 0x8a, 0xa2,
   0x0]

/-- The coding schemes that use `viterbi`. -/
inductive Scheme where
  | CS1
  | CS2
  | CS3
  deriving DecidableEq, Repr

/-- The number of bits of a block, with those that are punctured. -/
def Scheme.nbits : Scheme → Nat
  | .CS1 => 456
  | .CS2 => 588
  | .CS3 => 676

/-- The bits of a block that are punctured. -/
def Scheme.nullsym : Scheme → Option (List UChar)
  | .CS1 => none
  | .CS2 => some CS2_NullSyms
  | .CS3 => some CS3_NullSyms

/-- The buffer that a decoder gives to `viterbi`, set to zero. -/
def Scheme.data : Scheme → List UChar
  | .CS1 => List.replicate 57 0
  | .CS2 => List.replicate 74 0
  | .CS3 => List.replicate 85 0

/-- The bit of a block was sent. -/
def Scheme.sent (sch : Scheme) (i : Nat) : Bool :=
  !((sch.nullsym.map fun nullsym => bit nullsym i).getD false)

/-- The Hamming distance from the bits received to the encoding of a message, over the bits sent. -/
def Scheme.distance (sch : Scheme) (symbol data : List UChar) : Nat :=
  let encoded := (cvencode data (sch.nbits / 2) (List.replicate (sch.nbits / 8 + 1) 0)).2
  ((List.range sch.nbits).filter fun i => sch.sent i && (bit encoded i != bit symbol i)).length

/-- `viterbi` returns a message whose encoding is nearest to what was received. -/
def Scheme.DecodesNearest (sch : Scheme) (symbol : List UChar) : Prop :=
  (viterbi symbol sch.nbits sch.nullsym sch.data).1 = 0 ∧
    ∀ data, sch.distance symbol (viterbi symbol sch.nbits sch.nullsym sch.data).2 ≤
      sch.distance symbol data

/-- The two bits that the generators give out, in the encoder's state of the last four bits. -/
def generated (s : Fin 16) (b : Bool) : Bool × Bool :=
  let s3 := s.val.testBit 3
  let s2 := s.val.testBit 2
  let s0 := s.val.testBit 0
  (b ^^ s2 ^^ s3, b ^^ s0 ^^ s2 ^^ s3)

/-- The bits of a stage that were sent and are not those given out. -/
def wrongBits (received : UChar × UChar) (out : Bool × Bool) : Nat :=
  let wrong (n : Nat) (b : Bool) : Nat :=
    if received.2.getLsbD n = false ∧ received.1.getLsbD n ≠ b then 1 else 0
  wrong 0 out.1 + wrong 1 out.2

/-- The encoder, its states the last four bits. -/
def trellis : Trellis (Fin 16) Bool (UChar × UChar) where
  next s b := ⟨(2 * s.val + b.toNat) % 16, Nat.mod_lt _ (by decide)⟩
  cost s b received := wrongBits received (generated s b)

/-- On the way back from the nearest state, each step comes from the predecessor that is nearer also when
    the bits of the step are counted. -/
def Scheme.WayBackDecided (sch : Scheme) (symbol : List UChar) : Prop :=
  let received := stages symbol sch.nbits sch.nullsym
  ∀ ms, trellis.Follows 0 ms received → ∀ i < ms.length, trellis.Decided 0 ms received i

end Gprs
