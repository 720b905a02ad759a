import Mathlib.Algebra.Order.Ring.Int
import Mathlib.Data.List.Basic

/-!
# Tallies in the digits of a number

The elements of a list are counted by a key, each count in its own digit of one number. As long as no digit
overflows, the digits are the counts.
-/

namespace Tally

variable {α : Type*} {base : ℕ} {key : α → ℕ}

/-- One in the digit of its key for each element. -/
def tally (base : ℕ) (key : α → ℕ) (l : List α) : ℕ := l.foldr (fun x s => s + base ^ key x) 0

/-- A digit is counted up and does not overflow. -/
theorem digit_add_pow {a e r : ℕ} (h : a / base ^ e % base + 1 < base) :
    (a + base ^ e) / base ^ r % base = a / base ^ r % base + if e = r then 1 else 0 := by
  have hpos : 0 < base := by omega
  rcases lt_trichotomy e r with hlt | rfl | hgt
  · -- the digits above do not see a carry
    obtain ⟨d, rfl⟩ := Nat.exists_eq_add_of_lt hlt
    have hcarry : (a / base ^ e + 1) / base = a / base ^ e / base := by
      rw [Nat.add_div hpos, Nat.mod_eq_of_lt (show 1 < base by omega), if_neg (by omega),
        Nat.div_eq_of_lt (show 1 < base by omega), Nat.add_zero]
    rw [if_neg hlt.ne, show e + d + 1 = e + (1 + d) by omega, pow_add, pow_add, pow_one,
      ← Nat.div_div_eq_div_mul, ← Nat.div_div_eq_div_mul, ← Nat.div_div_eq_div_mul,
      ← Nat.div_div_eq_div_mul, Nat.add_div_right _ (Nat.pow_pos hpos), hcarry, Nat.add_zero]
  · rw [if_pos rfl, Nat.add_div_right _ (Nat.pow_pos hpos), Nat.add_mod,
      Nat.mod_eq_of_lt (show 1 < base by omega), Nat.mod_eq_of_lt h]
  · obtain ⟨d, rfl⟩ := Nat.exists_eq_add_of_lt hgt
    rw [if_neg hgt.ne', show r + d + 1 = r + (d + 1) by omega, pow_add,
      Nat.add_mul_div_left _ _ (Nat.pow_pos hpos), pow_succ, Nat.add_mul_mod_self_right, Nat.add_zero]

theorem digit_tally {l : List α} (h : l.length < base) (r : ℕ) :
    tally base key l / base ^ r % base = l.countP fun x => key x = r := by
  induction l generalizing r with
  | nil => simp [tally]
  | cons x l ih =>
    rw [List.length_cons] at h
    have hdigit := ih (by omega)
    have hle : l.countP (fun y => key y = key x) ≤ l.length := List.countP_le_length
    have hroom : tally base key l / base ^ key x % base + 1 < base := by
      rw [hdigit]
      omega
    show (tally base key l + base ^ key x) / base ^ r % base = _
    rw [digit_add_pow hroom, hdigit, List.countP_cons]
    simp only [decide_eq_true_eq]

end Tally
