import Mathlib.Data.Nat.Find

/-!
# Going round a list

`next n` is the position behind a position of a list of length `n`, with the first one behind the
last. `ahead` counts the steps to the next position with a property: some position has it, so a walk
round the list gets there.
-/

namespace RoundRobin

variable {n i : Nat} {p : Nat → Prop}

/-- The place behind a place on the circle. -/
def next (n i : Nat) : Nat := if i + 1 = n then 0 else i + 1

theorem next_lt (h : i < n) : next n i < n := by
  unfold next
  split <;> omega

theorem next_eq_mod (h : i < n) : next n i = (i + 1) % n := by
  unfold next
  split
  next he => rw [he, Nat.mod_self]
  next he => exact (Nat.mod_eq_of_lt (by omega)).symm

/-- From every position a position with the property is less than `n` steps away. -/
theorem exists_ahead (hi : i < n) (hp : ∃ j < n, p j) : ∃ k, k < n ∧ p ((i + k) % n) := by
  obtain ⟨j, hj, hpj⟩ := hp
  rcases Nat.lt_or_ge j i with hji | hij
  · refine ⟨n - i + j, by omega, ?_⟩
    rwa [show i + (n - i + j) = j + n by omega, Nat.add_mod_right, Nat.mod_eq_of_lt hj]
  · refine ⟨j - i, by omega, ?_⟩
    rwa [show i + (j - i) = j by omega, Nat.mod_eq_of_lt hj]

open Classical in
/-- The steps from `i` to the next position with `p`. -/
noncomputable def ahead (p : Nat → Prop) (n i : Nat) : Nat :=
  if h : ∃ k, k < n ∧ p ((i + k) % n) then Nat.find h else 0

theorem ahead_lt (hi : i < n) (hp : ∃ j < n, p j) : ahead p n i < n := by
  classical
  have h := exists_ahead hi hp
  rw [ahead, dif_pos h]
  exact (Nat.find_spec h).1

/-- A step from a position without the property is a step towards one that has it. -/
theorem ahead_next (hi : i < n) (hp : ∃ j < n, p j) (hpi : ¬ p i) :
    ahead p n (next n i) < ahead p n i := by
  classical
  have h := exists_ahead hi hp
  have h' := exists_ahead (next_lt hi) hp
  rw [ahead, dif_pos h', ahead, dif_pos h]
  obtain ⟨hlt, hpk⟩ := Nat.find_spec h
  have hpos : Nat.find h ≠ 0 := by
    intro h0
    rw [h0, Nat.add_zero, Nat.mod_eq_of_lt hi] at hpk
    exact hpi hpk
  have hnext : p ((next n i + (Nat.find h - 1)) % n) := by
    rw [next_eq_mod hi, Nat.mod_add_mod]
    rwa [show i + 1 + (Nat.find h - 1) = i + Nat.find h by omega]
  exact Nat.lt_of_le_of_lt (Nat.find_min' h' ⟨by omega, hnext⟩) (by omega)

end RoundRobin
