import Mathlib.Algebra.BigOperators.Intervals
import Nctuns.Lib.KeyEquation

/-!
# Binary words as polynomials

A word of bits, the highest power first, is a polynomial, and `horner` its value. Words are added bit by
bit, so over a ring of characteristic two the value of a sum is the sum of the values. At the powers of
a unit the values of a word are the power sums of the places of its bits.
-/

namespace BinaryWord

open Finset

variable {R : Type*} [CommRing R] {x : R} {l l' : List Bool} {b : Bool}

/-- The value of a word. -/
def horner (x : R) (bits : List Bool) : R := bits.foldl (fun acc b => acc * x + if b then 1 else 0) 0

@[simp] theorem horner_nil : horner x [] = 0 := rfl

theorem horner_concat : horner x (l ++ [b]) = horner x l * x + if b then 1 else 0 := by
  unfold horner
  rw [List.foldl_append]
  rfl

theorem horner_append : horner x (l ++ l') = horner x l * x ^ l'.length + horner x l' := by
  induction l' using List.reverseRecOn with
  | nil => simp
  | append_singleton l' b ih =>
    rw [← List.append_assoc, horner_concat, ih, horner_concat, List.length_append, List.length_singleton,
      pow_succ]
    ring

theorem horner_cons : horner x (b :: l) = (if b then x ^ l.length else 0) + horner x l := by
  rw [← List.singleton_append, horner_append]
  cases b <;> simp [horner]

theorem horner_replicate_false (n : ℕ) : horner x (List.replicate n false) = 0 := by
  induction n with
  | zero => rfl
  | succ n ih => rw [List.replicate_succ, horner_cons, ih, if_neg Bool.false_ne_true, zero_add]

theorem horner_map_range (w : ℕ → Bool) (n : ℕ) :
    horner x ((List.range n).map w) = ∑ i ∈ range n, if w i then x ^ (n - 1 - i) else 0 := by
  induction n with
  | zero => rfl
  | succ n ih =>
    rw [List.range_succ, List.map_append, List.map_singleton, horner_concat, ih, sum_range_succ, sum_mul,
      Nat.add_sub_cancel, Nat.sub_self, pow_zero]
    congr 1
    refine sum_congr rfl fun i hi => ?_
    have hlt := mem_range.1 hi
    rw [ite_mul, zero_mul, ← pow_succ, show n - 1 - i + 1 = n - i by omega]

section Binary

variable [CharP R 2]

theorem horner_xor (w w' : ℕ → Bool) (n : ℕ) :
    horner x ((List.range n).map fun i => w i ^^ w' i) =
      horner x ((List.range n).map w) + horner x ((List.range n).map w') := by
  rw [horner_map_range, horner_map_range, horner_map_range, ← sum_add_distrib]
  refine sum_congr rfl fun i _ => ?_
  cases w i <;> cases w' i <;> simp [CharTwo.add_self_eq_zero]

theorem horner_zipWith_xor (hlen : l.length = l'.length) :
    horner x (List.zipWith (fun a b => a ^^ b) l l') = horner x l + horner x l' := by
  induction l generalizing l' with
  | nil =>
    obtain rfl := List.length_eq_zero_iff.1 hlen.symm
    simp
  | cons a l ih =>
    cases l' with
    | nil => simp at hlen
    | cons b l' =>
      have hlen : l.length = l'.length := by simpa using hlen
      rw [List.zipWith_cons_cons, horner_cons, horner_cons, horner_cons, ih hlen, List.length_zipWith,
        hlen, Nat.min_self]
      cases a <;> cases b <;> simp
      · ring
      · ring
      · rw [add_add_add_comm, CharTwo.add_self_eq_zero, zero_add]

end Binary

/-! ### Places -/

variable {F : Type*} [Field F]

/-- Powers below `n` are different. -/
def Distinct (α : F) (n : ℕ) : Prop := ∀ i < n, ∀ j < n, α ^ i = α ^ j → i = j

theorem places_injOn {α : F} {n : ℕ} (hα : Distinct α n) {i j : ℕ} (hi : i < n) (hj : j < n)
    (h : α ^ (n - 1 - i) = α ^ (n - 1 - j)) : i = j := by
  have := hα _ (by omega) _ (by omega) h
  omega

variable [DecidableEq F]

/-- The places of the bits of a word. -/
def places (α : F) (n : ℕ) (w : ℕ → Bool) : Finset F :=
  ((range n).filter fun i => w i = true).image fun i => α ^ (n - 1 - i)

theorem mem_places {α : F} {n : ℕ} {w : ℕ → Bool} {y : F} :
    y ∈ places α n w ↔ ∃ i < n, w i = true ∧ α ^ (n - 1 - i) = y := by
  unfold places
  rw [mem_image]
  constructor
  · rintro ⟨i, hi, rfl⟩
    exact ⟨i, mem_range.1 (mem_filter.1 hi).1, (mem_filter.1 hi).2, rfl⟩
  · rintro ⟨i, hi, hw, rfl⟩
    exact ⟨i, mem_filter.2 ⟨mem_range.2 hi, hw⟩, rfl⟩

theorem zero_notMem_places {α : F} (hα : α ≠ 0) (n : ℕ) (w : ℕ → Bool) : (0 : F) ∉ places α n w := by
  intro h
  obtain ⟨i, -, -, hi⟩ := mem_places.1 h
  exact pow_ne_zero _ hα hi

/-- The values of a word are the power sums of its places. -/
theorem horner_pow_eq {α : F} {n : ℕ} (hα : Distinct α n) (w : ℕ → Bool) {j : ℕ} (hj : j ≠ 0) :
    horner (α ^ j) ((List.range n).map w) =
      PowerSeries.coeff j (KeyEquation.powerSums (places α n w)) := by
  unfold KeyEquation.powerSums places
  rw [PowerSeries.coeff_mk, if_neg hj, horner_map_range, sum_image, sum_filter]
  · refine sum_congr rfl fun i _ => ?_
    rw [← pow_mul, ← pow_mul, Nat.mul_comm]
  · intro i hi i' hi' h
    exact places_injOn hα (mem_range.1 (mem_filter.1 hi).1) (mem_range.1 (mem_filter.1 hi').1) h

end BinaryWord
