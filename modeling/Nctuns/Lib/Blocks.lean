import Mathlib.Data.List.Basic

/-!
# Items in a stream of cells

Items that each take `n` cells of a stream, one behind the other. `marked` gives the items all of
whose cells carry a mark.
-/

namespace Blocks

variable {α β : Type*} {n k : Nat} {xs w : List α} {m l : List Bool} {f : α → List β}

/-- The elements whose whole block of `n` marks is set. -/
def marked (n : Nat) : List α → List Bool → List α
  | [], _ => []
  | x :: xs, m =>
    if m.take n = List.replicate n true then x :: marked n xs (m.drop n)
    else marked n xs (m.drop n)

theorem marked_cons {x : α} : marked n (x :: xs) m =
    if m.take n = List.replicate n true then x :: marked n xs (m.drop n)
    else marked n xs (m.drop n) := rfl

theorem marked_sublist (n : Nat) (xs : List α) (m : List Bool) : (marked n xs m).Sublist xs := by
  induction xs generalizing m with
  | nil => exact .refl _
  | cons x xs ih =>
    rw [marked_cons]
    split_ifs
    · exact (ih _).cons_cons x
    · exact (ih _).cons x

theorem marked_append (h : m.length = n * xs.length) :
    marked n (xs ++ w) (m ++ l) = marked n xs m ++ marked n w l := by
  induction xs generalizing m with
  | nil =>
    obtain rfl : m = [] := List.length_eq_zero_iff.1 (by simpa using h)
    rfl
  | cons x xs ih =>
    have hn : n ≤ m.length := by rw [h, List.length_cons, Nat.mul_succ]; omega
    have htake : (m ++ l).take n = m.take n := List.take_append_of_le_length hn
    have hdrop : (m ++ l).drop n = m.drop n ++ l := List.drop_append_of_le_length hn
    have ih := ih (m := m.drop n) (by
      rw [List.length_drop, h, List.length_cons, Nat.mul_succ]; omega)
    rw [List.cons_append, marked_cons, marked_cons, htake, hdrop, ih]
    split_ifs <;> rfl

/-- Too few marks for one item. -/
theorem marked_short (h : m.length < n) : marked n xs m = [] := by
  induction xs generalizing m with
  | nil => rfl
  | cons x xs ih =>
    have hne : m.take n ≠ List.replicate n true := by
      intro heq
      have := congrArg List.length heq
      rw [List.length_take, List.length_replicate] at this
      omega
    rw [marked_cons, if_neg hne]
    exact ih (by rw [List.length_drop]; omega)

theorem marked_cons_of_false {x : α} {i : Nat} (hi : i < n) (h : m[i]? = some false) :
    marked n (x :: xs) m = marked n xs (m.drop n) := by
  refine if_neg fun heq => ?_
  have := congrArg (fun l => l[i]?) heq
  simp only [List.getElem?_take_of_lt hi, h, List.getElem?_replicate, if_pos hi] at this
  exact absurd this (by decide)

theorem marked_replicate_false (hn : 0 < n) (xs : List α) (k : Nat) :
    marked n xs (List.replicate k false) = [] := by
  induction xs generalizing k with
  | nil => rfl
  | cons x xs ih =>
    rcases Nat.eq_zero_or_pos k with rfl | hk
    · exact marked_short hn
    · rw [marked_cons_of_false hn (by rw [List.getElem?_replicate, if_pos hk]), List.drop_replicate]
      exact ih _

/-- Items with no marks yet. -/
theorem marked_append_items (hm : m.length ≤ n * xs.length) (hn : 0 < n) (w : List α) :
    marked n (xs ++ w) m = marked n xs m := by
  induction xs generalizing m with
  | nil =>
    obtain rfl : m = [] := List.length_eq_zero_iff.1 (by simpa using hm)
    exact marked_short hn
  | cons x xs ih =>
    have hdrop : (m.drop n).length ≤ n * xs.length := by
      rw [List.length_cons, Nat.mul_succ] at hm
      rw [List.length_drop]
      omega
    rw [List.cons_append, marked_cons, marked_cons, ih hdrop]

theorem marked_append_false (hn : 0 < n) (k : Nat) :
    marked n xs (m ++ List.replicate k false) = marked n xs m := by
  induction xs generalizing m with
  | nil => rfl
  | cons x xs ih =>
    rcases Nat.lt_or_ge m.length n with hm | hm
    · rw [marked_short hm]
      rcases Nat.eq_zero_or_pos k with rfl | hk
      · rw [List.replicate_zero, List.append_nil, marked_short hm]
      · have hfalse : (m ++ List.replicate k false)[m.length]? = some false := by
          rw [List.getElem?_append_right (Nat.le_refl _), List.getElem?_replicate, if_pos (by omega)]
        rw [marked_cons_of_false hm hfalse, List.drop_append, List.drop_of_length_le (by omega),
          List.drop_replicate, List.nil_append]
        exact marked_replicate_false hn xs _
    · rw [marked_cons, marked_cons, List.take_append_of_le_length hm,
        List.drop_append_of_le_length hm, ih]

theorem marked_replicate_true (hn : 0 < n) (xs : List α) (k : Nat) :
    marked n xs (List.replicate k true) = xs.take (k / n) := by
  induction xs generalizing k with
  | nil => rw [List.take_nil]; rfl
  | cons x xs ih =>
    rcases Nat.lt_or_ge k n with hk | hk
    · rw [marked_short (by rw [List.length_replicate]; exact hk), Nat.div_eq_of_lt hk]; rfl
    · have htake : (List.replicate k true).take n = List.replicate n true := by
        rw [List.take_replicate, Nat.min_eq_left hk]
      have hdrop : (List.replicate k true).drop n = List.replicate (k - n) true :=
        List.drop_replicate ..
      rw [marked_cons, if_pos htake, hdrop, ih, Nat.div_eq_sub_div hn hk, List.take_succ_cons]

/-- The rest of an item that began before the marks did, and the items behind it. -/
theorem marked_append_true {x : α} (hm : m.length < n) (hk : n ≤ m.length + k) :
    marked n (x :: xs) (m ++ List.replicate k true) =
      (if m = List.replicate m.length true then [x] else []) ++
        xs.take ((m.length + k - n) / n) := by
  have hn : 0 < n := Nat.zero_lt_of_lt hm
  have htake : (m ++ List.replicate k true).take n =
      m ++ List.replicate (n - m.length) true := by
    rw [List.take_append, List.take_of_length_le (by omega), List.take_replicate,
      Nat.min_eq_left (by omega)]
  have hdrop : (m ++ List.replicate k true).drop n =
      List.replicate (m.length + k - n) true := by
    rw [List.drop_append, List.drop_of_length_le (by omega), List.drop_replicate, List.nil_append]
    congr 1; omega
  have hall : m ++ List.replicate (n - m.length) true = List.replicate n true ↔
      m = List.replicate m.length true := by
    conv_lhs => rhs; rw [show n = m.length + (n - m.length) by omega, List.replicate_add]
    constructor
    · intro h; exact List.append_cancel_right h
    · intro h; rw [← h]
  rw [marked_cons, htake, hdrop, marked_replicate_true hn]
  by_cases h : m = List.replicate m.length true
  · rw [if_pos (hall.2 h), if_pos h]; rfl
  · rw [if_neg fun h' => h (hall.1 h'), if_neg h]; rfl

/-- The length of a stream of items. -/
theorem length_flatMap (h : ∀ x, (f x).length = n) (xs : List α) :
    (xs.flatMap f).length = n * xs.length := by
  induction xs with
  | nil => rfl
  | cons x xs ih =>
    rw [List.flatMap_cons, List.length_append, h, ih, List.length_cons, Nat.mul_succ, Nat.add_comm]

end Blocks
