import Mathlib.Algebra.BigOperators.Group.List.Basic
import Mathlib.Algebra.Order.Ring.Int

/-!
# Pouring into demands

At level `q` each demand has got `min demand q`. Shares that lie between two levels next to each
other are max-min fair up to one unit: a demand that is not met has got at most one unit less than
any other.
-/

namespace MaxMin

variable {ι : Type*} {demand given : ι → Nat} {l m : List ι} {q n : Nat}

/-- Every share lies between the levels `q` and `q + 1`. -/
def Levelled (demand given : ι → Nat) (q : Nat) (l : List ι) : Prop :=
  ∀ i ∈ l, min (demand i) q ≤ given i ∧ given i ≤ min (demand i) (q + 1)

/-- Who has less than its demand is given at most one less than any other. -/
def Fair (demand given : ι → Nat) (l : List ι) : Prop :=
  ∀ i ∈ l, ∀ j ∈ l, given i < demand i → given j ≤ given i + 1

theorem Levelled.le_demand (h : Levelled demand given q l) {i : ι} (hi : i ∈ l) :
    given i ≤ demand i :=
  Nat.le_trans (h i hi).2 (Nat.min_le_left ..)

theorem Levelled.fair (h : Levelled demand given q l) : Fair demand given l := by
  intro i hi j hj hlt
  have hi := (h i hi).1
  have hj := (h j hj).2
  omega

/-- What the demands of a list have got at a level. -/
def poured (demand : ι → Nat) (q : Nat) (l : List ι) : Nat := (l.map fun i => min (demand i) q).sum

@[simp] theorem poured_nil : poured demand q [] = 0 := rfl

@[simp] theorem poured_cons (i : ι) (l : List ι) :
    poured demand q (i :: l) = min (demand i) q + poured demand q l := rfl

@[simp] theorem poured_append : poured demand q (l ++ m) = poured demand q l + poured demand q m := by
  rw [poured, List.map_append, List.sum_append]
  rfl

@[simp] theorem poured_zero : poured demand 0 l = 0 := by
  induction l with
  | nil => rfl
  | cons i l ih => rw [poured_cons, ih, Nat.min_zero]

theorem poured_le (h : q ≤ n) : poured demand q l ≤ poured demand n l := by
  induction l with
  | nil => exact Nat.le_refl _
  | cons i l ih =>
    rw [poured_cons, poured_cons]
    omega

/-- A demand above the level takes from what is poured to a higher one. -/
theorem poured_lt {i : ι} (hi : i ∈ l) (hlt : q < demand i) (h : q < n) :
    poured demand q l < poured demand n l := by
  induction l with
  | nil => exact absurd hi List.not_mem_nil
  | cons j l ih =>
    rw [poured_cons, poured_cons]
    rcases List.mem_cons.1 hi with rfl | hi
    · have hrest := @poured_le ι demand l q n (Nat.le_of_lt h)
      omega
    · have hrest := ih hi
      omega

theorem poured_le_sum : poured demand q l ≤ (l.map demand).sum := by
  induction l with
  | nil => exact Nat.le_refl _
  | cons i l ih =>
    rw [poured_cons, List.map_cons, List.sum_cons]
    omega

/-- Demands that reach no further than the level have got all they ask for. -/
theorem poured_eq_sum (h : ∀ i ∈ l, demand i ≤ q) : poured demand q l = (l.map demand).sum :=
  congrArg List.sum (List.map_congr_left fun i hi => Nat.min_eq_left (h i hi))

end MaxMin
