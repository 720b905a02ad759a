import Mathlib.Data.Nat.ModEq

/-!
# Counting in cycles

Time in cycles of `n` ticks, where tick `t` belongs to the cycle that ends at it: the ticks of a cycle
are `1, …, n`. A cycle of `count` units has `count` digits, each with its own ticks `1, …, unit`.
`nearest` is the occurrence of an event of every cycle that is closest to a given time.
-/

namespace Cycle

variable {n unit count t start d i W ref : ℕ}

/-- The tick of its cycle that `t` is. -/
def tick (n t : ℕ) : ℕ := if t % n = 0 then n else t % n

/-- The number of the unit that ends at or after `t`, computed from the number that begins there. -/
def digit (unit count t : ℕ) : ℕ :=
  if t % unit = 0 then if t / unit = 0 then count - 1 else t / unit - 1 else t / unit

theorem tick_pos (hn : 0 < n) (t : ℕ) : 0 < tick n t := by
  unfold tick
  split
  · exact hn
  · omega

theorem tick_le (hn : 0 < n) (t : ℕ) : tick n t ≤ n := by
  unfold tick
  split
  · exact le_rfl
  · exact (Nat.mod_lt t hn).le

theorem tick_mod (h : unit ∣ n) (t : ℕ) : tick unit (t % n) = tick unit t := by
  unfold tick
  rw [Nat.mod_mod_of_dvd t h]

/-- A time after the start is a number of whole cycles and its tick. -/
theorem eq_cycles_add_tick (hn : 0 < n) (ht : 0 < t) : t = (t - 1) / n * n + tick n t := by
  obtain ⟨q, hq⟩ : ∃ q, q = (t - 1) / n := ⟨_, rfl⟩
  have hlt := Nat.mod_lt (t - 1) hn
  have hsplit := Nat.div_add_mod (t - 1) n
  rw [← hq] at hsplit ⊢
  obtain ⟨r, hr⟩ : ∃ r, r = (t - 1) % n := ⟨_, rfl⟩
  rw [← hr] at hsplit hlt
  have hexp : t = n * q + (r + 1) := by omega
  have htick : tick n t = r + 1 := by
    unfold tick
    rw [hexp, Nat.mul_add_mod]
    rcases Nat.lt_or_ge (r + 1) n with hin | hend
    · rw [Nat.mod_eq_of_lt hin, if_neg (Nat.succ_ne_zero r)]
    · obtain rfl : n = r + 1 := by omega
      rw [Nat.mod_self, if_pos rfl]
  rw [htick, Nat.mul_comm]
  exact hexp

/-- A digit and the tick of its unit make up the tick of the cycle. -/
theorem digit_spec (hunit : 0 < unit) (hcount : 0 < count) (t : ℕ) :
    digit unit count (t % (count * unit)) < count ∧
      tick (count * unit) t = digit unit count (t % (count * unit)) * unit + tick unit t := by
  have hn : 0 < count * unit := Nat.mul_pos hcount hunit
  have hunder : tick unit (t % (count * unit)) = tick unit t := tick_mod (Dvd.intro_left count rfl) t
  rw [← hunder]
  have hlt := Nat.mod_lt t hn
  generalize ho : t % (count * unit) = o at hlt ⊢
  have htick : tick (count * unit) t = if o = 0 then count * unit else o := by
    rw [tick, ho]
  have hsplit := Nat.div_add_mod o unit
  have hquot : o / unit < count := Nat.div_lt_of_lt_mul (by rwa [Nat.mul_comm])
  rw [htick]
  unfold digit tick
  by_cases hend : o % unit = 0
  · rw [if_pos hend, if_pos hend]
    rw [hend, Nat.add_zero] at hsplit
    by_cases hzero : o / unit = 0
    · have h0 : o = 0 := by rw [← hsplit, hzero, Nat.mul_zero]
      rw [if_pos hzero, if_pos h0]
      refine ⟨by omega, ?_⟩
      obtain ⟨k, rfl⟩ : ∃ k, count = k + 1 := ⟨count - 1, by omega⟩
      rw [Nat.add_sub_cancel, Nat.add_mul, Nat.one_mul]
    · obtain ⟨k, hk⟩ : ∃ k, o / unit = k + 1 := Nat.exists_eq_succ_of_ne_zero hzero
      have h0 : o ≠ 0 := by
        rintro rfl
        exact hzero (Nat.zero_div unit)
      rw [if_neg hzero, if_neg h0, hk, Nat.add_sub_cancel]
      refine ⟨by omega, ?_⟩
      rw [← hsplit, hk, Nat.mul_add, Nat.mul_one, Nat.mul_comm]
  · have h0 : o ≠ 0 := by
      rintro rfl
      exact hend (Nat.zero_mod unit)
    rw [if_neg hend, if_neg hend, if_neg h0]
    refine ⟨hquot, ?_⟩
    rw [Nat.mul_comm]
    exact hsplit.symm

/-! ### The closest occurrence -/

/-- Of the times `start`, `start + W`, … the one closest to `ref`. -/
def nearest (W start ref : ℕ) : ℕ :=
  if ref > start then
    let start := start + (ref - start) / W * W
    if ref - start > W / 2 then start + W else start
  else start

theorem nearest_modEq (W start ref : ℕ) : nearest W start ref ≡ start [MOD W] := by
  unfold nearest
  dsimp only
  split
  · have hcycles : start + (ref - start) / W * W ≡ start [MOD W] := by
      rw [Nat.mul_comm]
      exact Nat.add_mul_mod_self_left start W _
    split
    · exact (Nat.add_mod_right _ W).trans hcycles
    · exact hcycles
  · rfl

/-- It is at most half a cycle away. -/
theorem nearest_le (hW : 0 < W) (h : start ≤ ref) :
    ref ≤ nearest W start ref + W / 2 ∧ nearest W start ref ≤ ref + W / 2 := by
  unfold nearest
  dsimp only
  split
  · have hsplit := Nat.div_add_mod (ref - start) W
    have hlt := Nat.mod_lt (ref - start) hW
    rw [Nat.mul_comm] at hsplit
    generalize (ref - start) / W * W = q at hsplit ⊢
    generalize (ref - start) % W = r at hsplit hlt
    split <;> omega
  · omega

/-- An occurrence less than half a cycle ago is the closest one. -/
theorem nearest_eq (hd : 0 < d) (hhalf : d ≤ W / 2) :
    nearest W start (start + i * W + d) = start + i * W := by
  have hW : 0 < W := by omega
  have hquot : (start + i * W + d - start) / W = i := by
    rw [Nat.add_assoc, Nat.add_sub_cancel_left, Nat.add_comm, Nat.add_mul_div_right _ _ hW,
      Nat.div_eq_of_lt (by omega), Nat.zero_add]
  unfold nearest
  dsimp only
  rw [if_pos (by omega), hquot, if_neg (by omega)]

end Cycle
