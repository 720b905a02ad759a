import Mathlib.Algebra.BigOperators.Group.Finset.Basic
import Mathlib.Algebra.BigOperators.Intervals
import Mathlib.Algebra.Order.BigOperators.Group.Multiset
import Mathlib.Order.Interval.Finset.Nat

/-!
# Binary trees in arrays

A binary tree stored in the positions `1` to `n` of an array: the children of `i` are `2 * i` and
`2 * i + 1`. `Ordered` says that no node comes after a child of it. While a value sifts up or down
one position is a hole whose content is out of date; `UpHole` and `DownHole` are the loop
invariants of the two directions, for a value that is still to be placed.

The order is any transitive relation, so one run of a loop can be checked against several orders.
-/

namespace TreeHeap

variable {α : Type*} {r : α → α → Prop} {a : Nat → α} {n i : Nat} {e : α}

/-- No node of the tree comes after one of its children. -/
def Ordered (r : α → α → Prop) (a : Nat → α) (n : Nat) : Prop :=
  ∀ i, 2 ≤ i → i ≤ n → r (a (i / 2)) (a i)

/-- The values stored in the tree. -/
def contents (a : Nat → α) (n : Nat) : Multiset α := ∑ k ∈ Finset.Icc 1 n, {a k}

/-- The tree is ordered except at the hole, the hole's parent does not come after the hole's
    children, and `e` does not come after them either. -/
structure UpHole (r : α → α → Prop) (a : Nat → α) (n hole : Nat) (e : α) : Prop where
  off : ∀ i, 2 ≤ i → i ≤ n → i ≠ hole → i / 2 ≠ hole → r (a (i / 2)) (a i)
  across : 2 ≤ hole → ∀ i, i ≤ n → i / 2 = hole → r (a (hole / 2)) (a i)
  below : ∀ i, 2 ≤ i → i ≤ n → i / 2 = hole → r e (a i)

/-- The tree is ordered except at the hole, and the hole's parent comes neither after the hole's
    children nor after `e`. -/
structure DownHole (r : α → α → Prop) (a : Nat → α) (n hole : Nat) (e : α) : Prop where
  off : ∀ i, 2 ≤ i → i ≤ n → i ≠ hole → i / 2 ≠ hole → r (a (i / 2)) (a i)
  across : 2 ≤ hole → ∀ i, i ≤ n → i / 2 = hole → r (a (hole / 2)) (a i)
  above : 2 ≤ hole → r (a (hole / 2)) e

theorem update_of_ne {v : α} {j : Nat} (h : i ≠ j) : Function.update a j v i = a i :=
  Function.update_of_ne h v a

theorem half_ne_self (h : 2 ≤ i) : i / 2 ≠ i := by omega

/-! ## The order -/

/-- The root of an ordered tree comes after no node. -/
theorem Ordered.root (hr : ∀ x, r x x) (ht : ∀ x y z, r x y → r y z → r x z)
    (h : Ordered r a n) : ∀ i, 1 ≤ i → i ≤ n → r (a 1) (a i) := by
  intro i
  induction i using Nat.strong_induction_on with
  | _ i ih =>
    intro h1 hn
    by_cases hi : i = 1
    · subst hi; exact hr _
    · exact ht _ _ _ (ih (i / 2) (by omega) (by omega) (by omega)) (h i (by omega) hn)

theorem Ordered.shrink (h : Ordered r a (n + 1)) : Ordered r a n :=
  fun i h2 hn => h i h2 (by omega)

/-- A value added behind the last node of an ordered tree is a hole to sift up from. -/
theorem Ordered.upHole (h : Ordered r a n) : UpHole r a (n + 1) (n + 1) e where
  off i h2 hn hne _ := h i h2 (by omega)
  across _ i hn hp := by omega
  below i _ hn hp := by omega

/-- Taking the root out of an ordered tree leaves a hole to sift down from. -/
theorem Ordered.downHole (h : Ordered r a n) : DownHole r a n 1 e where
  off i h2 hn _ _ := h i h2 hn
  across h2 := by omega
  above h2 := by omega

/-- The hole moves up when its parent does not come before the value to place. -/
theorem UpHole.move (ht : ∀ x y z, r x y → r y z → r x z) (h : UpHole r a n i e) (h2 : 2 ≤ i)
    (hn : i ≤ n) (hb : r e (a (i / 2))) :
    UpHole r (Function.update a i (a (i / 2))) n (i / 2) e := by
  have hne : i / 2 ≠ i := half_ne_self h2
  have hup : 2 ≤ i / 2 → r (a (i / 2 / 2)) (a (i / 2)) := fun hq =>
    h.off (i / 2) hq (by omega) hne (by omega)
  constructor
  · intro k hk hkn hki hkp
    by_cases hkh : k = i
    · exact absurd (by rw [hkh]) hkp
    · rw [update_of_ne hkh]
      by_cases hp : k / 2 = i
      · rw [hp, Function.update_self]; exact h.across h2 k hkn hp
      · rw [update_of_ne hp]; exact h.off k hk hkn hkh hp
  · intro hq k hkn hkp
    rw [update_of_ne (show i / 2 / 2 ≠ i by omega)]
    by_cases hkh : k = i
    · subst hkh; rw [Function.update_self]; exact hup hq
    · have hk := h.off k (by omega) hkn hkh (by omega)
      rw [hkp] at hk
      rw [update_of_ne hkh]; exact ht _ _ _ (hup hq) hk
  · intro k hk hkn hkp
    by_cases hkh : k = i
    · subst hkh; rw [Function.update_self]; exact hb
    · have hk' := h.off k hk hkn hkh (by omega)
      rw [hkp] at hk'
      rw [update_of_ne hkh]; exact ht _ _ _ hb hk'

/-- Placing the value where its parent does not come after it restores the order. -/
theorem UpHole.finish (h : UpHole r a n i e) (hstop : 2 ≤ i → r (a (i / 2)) e) :
    Ordered r (Function.update a i e) n := by
  intro k hk hkn
  by_cases hkh : k = i
  · subst hkh
    rw [Function.update_self, update_of_ne (half_ne_self hk)]; exact hstop hk
  · rw [update_of_ne hkh]
    by_cases hp : k / 2 = i
    · rw [hp, Function.update_self]; exact h.below k hk hkn hp
    · rw [update_of_ne hp]; exact h.off k hk hkn hkh hp

/-- The hole moves down to a child `j` that comes after no child of the hole and not after the
    value to place. -/
theorem DownHole.move (h : DownHole r a n i e) {j : Nat} (h1 : 1 ≤ i) (hj : j / 2 = i)
    (hjn : j ≤ n) (hmin : ∀ k, k ≤ n → k / 2 = i → r (a j) (a k)) (hb : r (a j) e) :
    DownHole r (Function.update a i (a j)) n j e := by
  have hij : j ≠ i := by omega
  constructor
  · intro k hk hkn hkj hkp
    by_cases hkh : k = i
    · subst hkh
      rw [Function.update_self, update_of_ne (half_ne_self hk)]; exact h.across hk j hjn hj
    · rw [update_of_ne hkh]
      by_cases hp : k / 2 = i
      · rw [hp, Function.update_self]; exact hmin k hkn hp
      · rw [update_of_ne hp]; exact h.off k hk hkn hkh hp
  · intro _ k hkn hkp
    rw [hj, Function.update_self, update_of_ne (show k ≠ i by omega)]
    have hk := h.off k (by omega) hkn (by omega) (by omega)
    rwa [hkp] at hk
  · intro _
    rw [hj, Function.update_self]; exact hb

/-- Placing the value where it comes after no child of the hole restores the order. -/
theorem DownHole.finish (h : DownHole r a n i e) (hstop : ∀ k, 2 ≤ k → k ≤ n → k / 2 = i → r e (a k)) :
    Ordered r (Function.update a i e) n := by
  intro k hk hkn
  by_cases hkh : k = i
  · subst hkh
    rw [Function.update_self, update_of_ne (half_ne_self hk)]; exact h.above hk
  · rw [update_of_ne hkh]
    by_cases hp : k / 2 = i
    · rw [hp, Function.update_self]; exact hstop k hk hkn hp
    · rw [update_of_ne hp]; exact h.off k hk hkn hkh hp

/-! ## The contents -/

theorem mem_contents {x : α} : x ∈ contents a n ↔ ∃ k, 1 ≤ k ∧ k ≤ n ∧ x = a k := by
  simp [contents, Multiset.mem_sum, and_assoc]

@[simp] theorem contents_zero (a : Nat → α) : contents a 0 = 0 := by simp [contents]

theorem contents_succ (a : Nat → α) (n : Nat) : contents a (n + 1) = a (n + 1) ::ₘ contents a n := by
  rw [contents, Finset.sum_Icc_succ_top (by omega), add_comm, Multiset.singleton_add, contents]

/-- Writing behind the last node changes nothing. -/
theorem contents_update_of_lt {v : α} (h : n < i) : contents (Function.update a i v) n = contents a n := by
  unfold contents
  refine Finset.sum_congr rfl fun k hk => ?_
  rw [update_of_ne (by have := (Finset.mem_Icc.1 hk).2; omega)]

/-- Moving the hole and then placing `e` stores the same values as placing `e` in the hole. -/
theorem contents_move {j : Nat} (hi : 1 ≤ i) (hin : i ≤ n) (hj : 1 ≤ j) (hjn : j ≤ n) (hij : i ≠ j) :
    contents (Function.update (Function.update a i (a j)) j e) n =
      contents (Function.update a i e) n := by
  unfold contents
  refine Finset.sum_equiv (Equiv.swap i j) (fun k => ?_) (fun k _ => ?_)
  · by_cases hki : k = i
    · subst hki; simp; omega
    · by_cases hkj : k = j
      · subst hkj; simp; omega
      · rw [Equiv.swap_apply_of_ne_of_ne hki hkj]
  · by_cases hki : k = i
    · subst hki
      rw [Equiv.swap_apply_left, update_of_ne hij, Function.update_self, update_of_ne hij.symm]
    · by_cases hkj : k = j
      · subst hkj; rw [Equiv.swap_apply_right, Function.update_self, Function.update_self]
      · rw [Equiv.swap_apply_of_ne_of_ne hki hkj, update_of_ne hkj, update_of_ne hki, update_of_ne hki]

/-- Overwriting one value by `e`: the old value goes, `e` comes. -/
theorem cons_contents_update (hi : 1 ≤ i) (hin : i ≤ n) :
    a i ::ₘ contents (Function.update a i e) n = e ::ₘ contents a n := by
  have hmem : i ∈ Finset.Icc 1 n := Finset.mem_Icc.2 ⟨hi, hin⟩
  unfold contents
  rw [← Finset.add_sum_erase _ _ hmem, ← Finset.add_sum_erase _ (fun k => ({a k} : Multiset α)) hmem,
    Function.update_self, Multiset.singleton_add, Multiset.singleton_add, Multiset.cons_swap]
  congr 2
  refine Finset.sum_congr rfl fun k hk => ?_
  rw [update_of_ne (Finset.ne_of_mem_erase hk)]

end TreeHeap
