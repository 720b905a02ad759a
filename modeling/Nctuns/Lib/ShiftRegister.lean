import Mathlib.Data.List.Basic

/-!
# Shift registers with feedback

A register of `w` bits takes in a bit: it moves up by one, and `poly` is added to it if the bit that
leaves it differs from the one that comes in. If `poly` is odd, a step loses nothing, so two streams
that differ in one bit leave different registers.
-/

namespace ShiftRegister

variable {w : Nat} {poly r r' : BitVec w} {b b' : Bool}

/-- One bit is shifted in. -/
def step (poly r : BitVec w) (b : Bool) : BitVec w :=
  if r.msb ≠ b then (r <<< 1) ^^^ poly else r <<< 1

/-- Bits are shifted in, one after the other. -/
def run (poly : BitVec w) : BitVec w → List Bool → BitVec w := List.foldl (step poly)

@[simp] theorem run_nil : run poly r [] = r := rfl

@[simp] theorem run_cons (l : List Bool) : run poly r (b :: l) = run poly (step poly r b) l := rfl

theorem run_append (l l' : List Bool) : run poly r (l ++ l') = run poly (run poly r l) l' :=
  List.foldl_append

/-- The lowest bit behind a step tells whether `poly` was added. -/
theorem getLsbD_zero_step (hw : 0 < w) (hp : poly.getLsbD 0 = true) :
    (step poly r b).getLsbD 0 = decide (r.msb ≠ b) := by
  unfold step
  split
  next h => simp [hp, hw, h]
  next h => simp [h]

/-- Registers that agree in the highest bit and in the others. -/
theorem eq_of_shiftLeft_one (hw : 0 < w) (hmsb : r.msb = r'.msb) (h : r <<< 1 = r' <<< 1) : r = r' := by
  refine BitVec.eq_of_getLsbD_eq fun i hi => ?_
  rcases Nat.lt_or_ge (i + 1) w with hlt | hge
  · have hbit : (r <<< 1).getLsbD (i + 1) = (r' <<< 1).getLsbD (i + 1) := by rw [h]
    simpa [hlt, BitVec.getLsbD_eq_getElem hi] using hbit
  · obtain rfl : i = w - 1 := by omega
    simpa [BitVec.msb_eq_getLsbD_last] using hmsb

theorem step_injective (hw : 0 < w) (hp : poly.getLsbD 0 = true)
    (h : step poly r b = step poly r' b) : r = r' := by
  have hlow : decide (r.msb ≠ b) = decide (r'.msb ≠ b) := by
    rw [← getLsbD_zero_step hw hp, ← getLsbD_zero_step hw hp, h]
  have hmsb : r.msb = r'.msb := by
    revert hlow
    cases r.msb <;> cases r'.msb <;> cases b <;> simp
  refine eq_of_shiftLeft_one hw hmsb ?_
  unfold step at h
  rw [hmsb] at h
  split at h
  · exact (BitVec.xor_left_inj poly).1 h
  · exact h

theorem run_injective (hw : 0 < w) (hp : poly.getLsbD 0 = true) {l : List Bool}
    (h : run poly r l = run poly r' l) : r = r' := by
  induction l generalizing r r' with
  | nil => exact h
  | cons b l ih => exact step_injective hw hp (ih h)

/-- **Detection.** Streams that differ in one bit leave different registers. -/
theorem run_ne_of_flip (hw : 0 < w) (hp : poly.getLsbD 0 = true) (l l' : List Bool) (b : Bool) :
    run poly r (l ++ b :: l') ≠ run poly r (l ++ (!b) :: l') := by
  intro h
  rw [run_append, run_append, run_cons, run_cons] at h
  have hlow := congrArg (fun x => BitVec.getLsbD x 0) (run_injective hw hp h)
  simp only [getLsbD_zero_step hw hp] at hlow
  revert hlow
  cases (run poly r l).msb <;> cases b <;> simp

end ShiftRegister
