import Mathlib.Data.BitVec

/-!
# Random numbers

The generator of `random.cc`. A `long` has `w` bits, and signed arithmetic wraps around.
-/

namespace Engine.Generator

variable {w : Nat}

/-- The multiplier, 7**5. -/
def A : BitVec w := 16807#w

/-- The modulus, 2**31 - 1. -/
def M : BitVec w := 0x7fffffff#w

/-- `A` times the low half of the seed. -/
def lowProduct (seed_ : BitVec w) : BitVec w := A * (seed_ &&& 0xffff#w)

/-- `A` times the rest of it. -/
def highProduct (seed_ : BitVec w) : BitVec w := A * seed_.sshiftRight 16

/-- `Random`: the new `seed_`, which it returns. -/
def Random (seed_ : BitVec w) : BitVec w :=
  let L := lowProduct seed_
  let H := highProduct seed_
  let seed_ := ((H &&& 0x7fff#w) <<< 16) + L
  let seed_ := seed_ - M
  let seed_ := seed_ + H.sshiftRight 15
  if seed_.sle 0#w then seed_ + M else seed_

/-- What `n` calls of `Random` return. -/
def returned : Nat → BitVec w → List (BitVec w)
  | 0, _ => []
  | n + 1, seed_ => Random seed_ :: returned n (Random seed_)

/-- The recurrence that is documented. -/
def recurrence (s : Int) : Int := 16807 * s % (2 ^ 31 - 1)

/-- The seeds of the generator. -/
def IsSeed (s : Int) : Prop := 1 ≤ s ∧ s ≤ 2 ^ 31 - 2

instance (s : Int) : Decidable (IsSeed s) := inferInstanceAs (Decidable (_ ∧ _))

end Engine.Generator
