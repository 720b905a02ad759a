import Mathlib.Algebra.Field.Defs
import Mathlib.Data.List.DropRight
import Mathlib.Data.Set.Function
import Mathlib.Order.Interval.Set.Defs
import Nctuns.Dvb.DvbS2
import Nctuns.Lib.BitBuffer

/-!
# The BCH codes of DVB-S.2

`Bch` (`bch.cc`): the encoder divides by the generator polynomial in a shift register, the decoder finds
the error locator with the Berlekamp-Massey algorithm and flips the bits at its roots. The tables are
those that `Dvb_s2_feeder::_bch_encoder` hands to `Bch::init` (`dvb_s2_fec.cc`).
-/

namespace Dvb

open BitBuffer

/-! ### The field -/

/-- `galois::GaloisField`, taken to be right: its symbols are the elements of a field `F`, added bit by
    bit, `alpha_to[1]` is a root of `primitive_poly` (in ascending order), and `index_of` and `alpha_to`
    undo each other. -/
structure GaloisField (power : Nat) (primitive_poly : List Nat) (F : Type*) [Field F] where
  /-- The element of a symbol. -/
  element : Nat → F
  index : F → Nat
  element_one : element 1 = 1
  element_xor : ∀ a < 2 ^ power, ∀ b < 2 ^ power, element (a ^^^ b) = element a + element b
  element_bij : Set.BijOn element (Set.Iio (2 ^ power)) Set.univ
  root : (primitive_poly.foldr (fun c acc => (if c ≠ 0 then 1 else 0) + element 2 * acc) 0 : F) = 0
  index_lt : ∀ a ≠ 0, index a < 2 ^ power - 1
  alpha_pow_index : ∀ a ≠ 0, element 2 ^ index a = a
  index_alpha_pow : ∀ i < 2 ^ power - 1, index (element 2 ^ i) = i

namespace GaloisField

variable {power : Nat} {primitive_poly : List Nat} {F : Type*} [Field F]

/-- `alpha(value)`. -/
def alpha (gf : GaloisField power primitive_poly F) (value : Nat) : F := gf.element 2 ^ value

/-- `size()`. -/
def size (_ : GaloisField power primitive_poly F) : Nat := 2 ^ power - 1

end GaloisField

/-! ### Polynomials -/

/-- `galois::GaloisFieldPolynomial`: the coefficients, in ascending order. -/
abbrev GaloisFieldPolynomial (F : Type*) := List F

namespace GaloisFieldPolynomial

variable {F : Type*} [Field F] [DecidableEq F] (poly : GaloisFieldPolynomial F)

/-- The degree of a polynomial that has coefficients. -/
def deg : Nat := poly.length - 1

/-- The polynomial without its leading zeros. -/
def simplify : GaloisFieldPolynomial F := List.rdropWhile (fun c => decide (c = 0)) poly

/-- The loops of `operator+=`. -/
def addTo : GaloisFieldPolynomial F → GaloisFieldPolynomial F → GaloisFieldPolynomial F
  | [], polynomial => polynomial
  | poly, [] => poly
  | a :: poly, b :: polynomial => (a + b) :: addTo poly polynomial

/-- `operator-=`, which is `operator+=`. -/
def minus (polynomial : GaloisFieldPolynomial F) : GaloisFieldPolynomial F :=
  simplify (addTo poly polynomial)

/-- `operator*=` and `operator/=` with an element. -/
def times (gfe : F) : GaloisFieldPolynomial F := List.map (· * gfe) poly

/-- All coefficients divided by an element. -/
def dividedBy (gfe : F) : GaloisFieldPolynomial F := List.map (· / gfe) poly

/-- `operator<<=`. -/
def shiftLeft (n : Nat) : GaloisFieldPolynomial F :=
  if poly = [] then [] else List.replicate n 0 ++ poly

/-- `operator()`. -/
def eval (value : F) : F := List.foldr (fun c result => c + result * value) 0 poly

end GaloisFieldPolynomial

/-! ### The codes -/

/-- `_bit`. -/
def _bit (data : List (BitVec 8)) (i : Nat) : Bool :=
  decide (data.getD (i / 8) 0 &&& ((0x80 : BitVec 8) >>> (i % 8)) ≠ 0)

/-- Why the process stops. -/
inductive BchHalt
  | exit
  deriving DecidableEq

/-- `Bch` after `init`. -/
structure Bch (m : Nat) (prim_poly : List Nat) (F : Type*) [Field F] where
  _n : Nat
  _t : Nat
  _gen_poly : List Nat
  _galois_field : GaloisField m prim_poly F

namespace Bch

variable {m : Nat} {prim_poly : List Nat} {F : Type*} [Field F]

/-- `Bch::init`; the field is the one that it makes of `prim_poly` and `m`. -/
def init (galois_field : GaloisField m prim_poly F) (gen_poly : List Nat) (t : Nat) :
    Bch m prim_poly F where
  _n := 2 ^ m - 1
  _t := t
  _gen_poly := gen_poly.take (m * t)
  _galois_field := galois_field

variable (b : Bch m prim_poly F)

/-- The degree of the generator polynomial. -/
def _gen_poly_deg : Nat := m * b._t

/-- `_sys_check`. -/
def _sys_check (n : Nat) : Except BchHalt Unit := if n > b._n then .error .exit else .ok ()

/-- One bit of the message goes into the shift register. -/
def shift (shift_reg : List Bool) (bit : Bool) : List Bool :=
  let shifted := shift_reg.tail ++ [false]
  if (shift_reg.headD false ^^ bit) = true then
    List.zipWith (fun (s : Bool) g => decide (s.toNat ^^^ g ≠ 0)) shifted b._gen_poly
  else shifted

/-- `Bch::encoder`. -/
def encoder (block : List (BitVec 8)) (n : Nat) : Except BchHalt (List (BitVec 8)) := do
  b._sys_check n
  let r := b._gen_poly_deg
  let k := n - r
  let shift_reg := ((List.range k).map (_bit block)).foldl b.shift (List.replicate r false)
  let block := clear block (k / 8) (r / 8)
  return (List.range r).foldl (fun block i =>
    if shift_reg.getD i false then
      block.modify (k / 8 + i / 8) (· ^^^ ((0x80 : BitVec 8) >>> (i % 8)))
    else block) block

variable [DecidableEq F]

/-- The received word, in ascending order. -/
def recv_poly (block : List (BitVec 8)) (n : Nat) : GaloisFieldPolynomial F :=
  ((List.range n).map fun i => if _bit block i then (1 : F) else 0).reverse

/-- `_syndrome[i]`. -/
def _syndrome (block : List (BitVec 8)) (n i : Nat) : F :=
  (recv_poly block n).eval (b._galois_field.alpha 1 ^ i)

/-- The variables of the Berlekamp-Massey algorithm. -/
structure Vars (F : Type*) where
  poly_lambda : GaloisFieldPolynomial F
  poly_t : GaloisFieldPolynomial F
  l : Nat

/-- Step 3; the sum ends where the degree of Lambda does. -/
def delta (_syndrome : Nat → F) (v : Vars F) (k : Nat) : F :=
  _syndrome k - (List.range' 1 (min v.l v.poly_lambda.deg)).foldl
    (fun delta i => delta + v.poly_lambda.getD i 0 * _syndrome (k - i)) 0

/-- Steps 3 to 8. -/
def iterate (_syndrome : Nat → F) (v : Vars F) (k : Nat) : Vars F :=
  let delta := delta _syndrome v k
  let v' : Vars F :=
    if delta ≠ 0 then
      let poly_lambda := v.poly_lambda.minus (v.poly_t.times delta)
      if 2 * v.l < k then ⟨poly_lambda, v.poly_lambda.dividedBy delta, k - v.l⟩
      else { v with poly_lambda := poly_lambda }
    else v
  { v' with poly_t := v'.poly_t.shiftLeft 1 }

/-- The loop, which ends before `2 * _t`. -/
def poly_lambda (_syndrome : Nat → F) (_t : Nat) : GaloisFieldPolynomial F :=
  ((List.range' 1 (2 * _t - 1)).foldl (iterate _syndrome)
    ⟨[1], GaloisFieldPolynomial.shiftLeft [1] 1, 0⟩).poly_lambda

/-- Step 10: the roots, in the order of their symbols. -/
def roots (poly_lambda : GaloisFieldPolynomial F) : List F :=
  ((List.range (2 ^ m)).map b._galois_field.element).filter fun x => poly_lambda.eval x = 0

/-- `n - 1 - (root ^ -1).index()`, in 32 bits. -/
def err_bit (n : Nat) (root : F) : Nat :=
  (((n : Int) - 1 - b._galois_field.index root⁻¹) % 2 ^ 32).toNat

/-- The loop over the roots. -/
def correct (n : Nat) : List F → List (BitVec 8) → Int × List (BitVec 8)
  | [], block => (0, block)
  | root :: roots, block =>
    if b.err_bit n root ≥ n then (-1, block) else correct n roots (toggle block (b.err_bit n root))

/-- `Bch::decoder`: what it returns, and the block. -/
def decoder (block : List (BitVec 8)) (n : Nat) : Except BchHalt (Int × List (BitVec 8)) := do
  b._sys_check n
  let _syndrome := b._syndrome block n
  let err := (List.range' 1 (2 * b._t)).any fun i => _syndrome i ≠ 0
  if err = false then return (0, block)
  let lambda := poly_lambda _syndrome b._t
  if lambda.deg < 1 ∨ lambda.deg > b._t then return (-1, block)
  return b.correct n (b.roots lambda) block

end Bch

/-! ### The tables -/

/-- `_dvb_bch_mode`. -/
inductive BchMode
  | DVB_BCH_GF16_T12
  | DVB_BCH_GF16_T10
  | DVB_BCH_GF16_T8
  | DVB_BCH_GF14_T12
  deriving DecidableEq

/-- The primitive polynomial of degree 16. -/
def _bch_prim_poly_gf16 : List Nat :=
  [1, 0, 1, 1, 0, 1, 0, 0, 0, 0, 0, 0, 0, 0, 0, 0, 1]

/-- The primitive polynomial of degree 14. -/
def _bch_prim_poly_gf14 : List Nat :=
  [1, 1, 0, 1, 0, 1, 0, 0, 0, 0, 0, 0, 0, 0, 1]

/-- The generator polynomial for 12 errors over GF(2^16). -/
def _bch_gen_poly_gf16_t12 : List Nat :=
  [0, 1, 0, 0, 1, 1, 1, 0, 0, 0, 1, 0, 0, 1, 1, 0, 0, 0, 0, 0, 1, 1, 1, 0, 1, 0, 0, 0, 0, 0, 1, 1,
   1, 0, 0, 0, 0, 1, 0, 0, 0, 1, 0, 1, 1, 1, 0, 0, 0, 1, 0, 1, 0, 0, 0, 1, 0, 0, 0, 1, 1, 1, 0, 0,
   0, 1, 0, 1, 0, 0, 0, 0, 1, 1, 0, 0, 1, 1, 1, 1, 0, 0, 1, 0, 1, 1, 0, 0, 1, 1, 0, 1, 1, 0, 0, 0,
   1, 1, 0, 1, 1, 1, 0, 0, 0, 0, 1, 1, 0, 1, 0, 1, 0, 0, 0, 0, 1, 0, 0, 0, 1, 0, 0, 0, 1, 0, 0, 1,
   0, 0, 0, 0, 0, 0, 1, 1, 0, 1, 0, 0, 0, 1, 1, 1, 1, 0, 0, 0, 0, 1, 0, 1, 1, 1, 1, 1, 0, 1, 1, 1,
   0, 1, 1, 0, 0, 1, 1, 0, 0, 0, 0, 0, 0, 0, 1, 0, 0, 1, 0, 1, 0, 1, 0, 1, 1, 1, 1, 0, 0, 1, 1, 1]

/-- The generator polynomial for 10 errors over GF(2^16). -/
def _bch_gen_poly_gf16_t10 : List Nat :=
  [0, 1, 1, 0, 0, 0, 0, 0, 0, 0, 0, 1, 0, 1, 0, 1, 0, 0, 0, 0, 1, 1, 0, 0, 1, 1, 1, 0, 1, 1, 0, 1,
   1, 1, 1, 1, 1, 1, 0, 0, 0, 0, 1, 0, 1, 0, 1, 0, 0, 0, 1, 1, 0, 0, 1, 1, 0, 0, 0, 1, 1, 1, 1, 1,
   0, 1, 1, 0, 1, 0, 1, 0, 0, 1, 1, 1, 1, 0, 0, 0, 0, 1, 0, 1, 0, 1, 1, 1, 0, 0, 0, 0, 0, 0, 1, 1,
   1, 1, 1, 0, 1, 1, 1, 1, 1, 1, 0, 1, 0, 0, 0, 1, 0, 0, 1, 0, 0, 0, 1, 1, 0, 0, 0, 0, 0, 0, 0, 1,
   1, 0, 1, 1, 1, 0, 0, 0, 1, 0, 1, 1, 1, 0, 1, 1, 0, 1, 1, 0, 0, 1, 0, 1, 1, 0, 0, 1, 0, 0, 0, 1]

/-- The generator polynomial for 8 errors over GF(2^16). -/
def _bch_gen_poly_gf16_t8 : List Nat :=
  [0, 0, 0, 1, 1, 1, 0, 0, 0, 0, 0, 0, 0, 1, 1, 1, 0, 0, 1, 0, 0, 1, 0, 1, 0, 1, 0, 1, 1, 1, 1, 1,
   0, 1, 1, 1, 0, 0, 0, 1, 0, 0, 1, 0, 0, 1, 1, 1, 1, 0, 0, 1, 0, 1, 1, 1, 1, 0, 1, 1, 1, 1, 0, 1,
   0, 0, 0, 1, 1, 0, 0, 1, 1, 1, 1, 1, 1, 1, 0, 0, 0, 1, 1, 0, 1, 1, 0, 1, 0, 1, 1, 1, 0, 1, 0, 1,
   0, 0, 0, 0, 0, 1, 0, 0, 1, 1, 1, 1, 1, 0, 0, 1, 0, 1, 1, 0, 0, 1, 1, 0, 0, 0, 1, 0, 1, 0, 1, 1]

/-- The generator polynomial for 12 errors over GF(2^14). -/
def _bch_gen_poly_gf14_t12 : List Nat :=
  [0, 1, 0, 0, 0, 0, 0, 0, 0, 1, 1, 0, 0, 0, 1, 0, 1, 1, 0, 1, 1, 0, 1, 1, 1, 1, 1, 0,
   1, 0, 1, 0, 1, 0, 0, 1, 1, 0, 0, 0, 0, 1, 1, 0, 1, 0, 0, 1, 1, 0, 1, 1, 0, 0, 1, 0,
   0, 1, 1, 0, 0, 0, 1, 0, 1, 1, 0, 0, 1, 1, 0, 1, 0, 0, 1, 0, 0, 0, 1, 1, 1, 0, 1, 0,
   0, 0, 1, 1, 1, 0, 0, 1, 0, 0, 0, 0, 0, 1, 1, 0, 1, 0, 0, 1, 0, 1, 0, 1, 0, 0, 1, 0,
   1, 0, 0, 0, 1, 1, 1, 1, 1, 1, 1, 0, 0, 1, 1, 1, 1, 1, 0, 1, 0, 1, 1, 1, 1, 1, 0, 1,
   0, 0, 0, 1, 0, 0, 0, 1, 1, 0, 0, 1, 0, 0, 0, 0, 0, 1, 0, 1, 1, 0, 1, 0, 0, 1, 0, 1]

namespace BchMode

/-- The degree of the field. -/
def m : BchMode → Nat
  | DVB_BCH_GF14_T12 => 14
  | _ => 16

/-- The errors that the code corrects. -/
def t : BchMode → Nat
  | DVB_BCH_GF16_T12 | DVB_BCH_GF14_T12 => 12
  | DVB_BCH_GF16_T10 => 10
  | DVB_BCH_GF16_T8 => 8

/-- The primitive polynomial of the field. -/
def prim_poly : BchMode → List Nat
  | DVB_BCH_GF14_T12 => _bch_prim_poly_gf14
  | _ => _bch_prim_poly_gf16

/-- The generator polynomial of the code. -/
def gen_poly : BchMode → List Nat
  | DVB_BCH_GF16_T12 => _bch_gen_poly_gf16_t12
  | DVB_BCH_GF16_T10 => _bch_gen_poly_gf16_t10
  | DVB_BCH_GF16_T8 => _bch_gen_poly_gf16_t8
  | DVB_BCH_GF14_T12 => _bch_gen_poly_gf14_t12

/-- `_bch[mode]`. -/
def bch (mode : BchMode) {F : Type*} [Field F] (galois_field : GaloisField mode.m mode.prim_poly F) :
    Bch mode.m mode.prim_poly F :=
  .init galois_field mode.gen_poly mode.t

end BchMode

/-- `Dvb_s2::_bch_mode_table`. -/
def _bch_mode_table : CodingType → BchMode
  | .COD_NORMAL_2_3 | .COD_NORMAL_5_6 => .DVB_BCH_GF16_T10
  | .COD_NORMAL_8_9 | .COD_NORMAL_9_10 => .DVB_BCH_GF16_T8
  | .COD_NORMAL_1_4 | .COD_NORMAL_1_3 | .COD_NORMAL_2_5 | .COD_NORMAL_1_2 | .COD_NORMAL_3_5
  | .COD_NORMAL_3_4 | .COD_NORMAL_4_5 => .DVB_BCH_GF16_T12
  | _ => .DVB_BCH_GF14_T12

/-- The column `BCH_CODED` of `Dvb_s2::_fec_parameter_table`, in bits. -/
def CodingType.bchCoded : CodingType → Nat
  | COD_NORMAL_1_4 => 16200
  | COD_NORMAL_1_3 => 21600
  | COD_NORMAL_2_5 => 25920
  | COD_NORMAL_1_2 => 32400
  | COD_NORMAL_3_5 => 38880
  | COD_NORMAL_2_3 => 43200
  | COD_NORMAL_3_4 => 48600
  | COD_NORMAL_4_5 => 51840
  | COD_NORMAL_5_6 => 54000
  | COD_NORMAL_8_9 => 57600
  | COD_NORMAL_9_10 => 58320
  | COD_SHORT_1_4 => 3240
  | COD_SHORT_1_3 => 5400
  | COD_SHORT_2_5 => 6480
  | COD_SHORT_1_2 => 7200
  | COD_SHORT_3_5 => 9720
  | COD_SHORT_2_3 => 10800
  | COD_SHORT_3_4 => 11880
  | COD_SHORT_4_5 => 12600
  | COD_SHORT_5_6 => 13320
  | COD_SHORT_8_9 => 14400

end Dvb
