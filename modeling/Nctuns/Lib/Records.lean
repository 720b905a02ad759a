import Mathlib.Data.List.Basic
import Mathlib.Logic.Function.Basic

/-!
# Records of a fixed size

A codec writes a value as a fixed number of cells and reads it back from the beginning of a longer list. An
array of records is written one record behind the other, and each is read at a multiple of the size.
-/

namespace Records

/-- Values of `α` as `size` cells of `β`. -/
structure Codec (α β : Type*) where
  size : ℕ
  put : α → List β
  get : List β → α
  length_put : ∀ x, (put x).length = size
  get_put : ∀ x rest, get (put x ++ rest) = x

variable {α β : Type*} {c : Codec α β}

/-- The first `n` records of an array. -/
def putAll (c : Codec α β) (arr : ℕ → α) (n : ℕ) : List β := (List.range n).flatMap fun i => c.put (arr i)

/-- The first `n` values of an array. -/
def contents (arr : ℕ → α) (n : ℕ) : List α := (List.range n).map arr

/-- The record `i` of the array at `pos`. -/
def getAt (c : Codec α β) (cells : List β) (pos i : ℕ) : α := c.get (cells.drop (pos + i * c.size))

theorem putAll_succ (c : Codec α β) (arr : ℕ → α) (n : ℕ) :
    putAll c arr (n + 1) = putAll c arr n ++ c.put (arr n) := by
  simp [putAll, List.range_succ]

theorem length_putAll (c : Codec α β) (arr : ℕ → α) (n : ℕ) : (putAll c arr n).length = n * c.size := by
  induction n with
  | zero => simp [putAll]
  | succ n ih => rw [putAll_succ, List.length_append, ih, c.length_put, Nat.succ_mul]

/-- A record is at its place, whatever stands behind the array. -/
theorem drop_putAll (arr : ℕ → α) {n i : ℕ} (hi : i < n) (rest : List β) :
    ∃ rest', (putAll c arr n ++ rest).drop (i * c.size) = c.put (arr i) ++ rest' := by
  induction n generalizing rest with
  | zero => exact absurd hi (Nat.not_lt_zero i)
  | succ n ih =>
    rw [putAll_succ, List.append_assoc]
    rcases Nat.lt_succ_iff_lt_or_eq.1 hi with hlt | rfl
    · exact ih hlt _
    · refine ⟨rest, ?_⟩
      have hlen := length_putAll c arr i
      rw [List.drop_append_of_le_length (Nat.le_of_eq hlen.symm), List.drop_of_length_le (Nat.le_of_eq hlen)]
      rfl

theorem getAt_putAll (arr : ℕ → α) {n i : ℕ} (hi : i < n) {pre : List β} {pos : ℕ} (hpos : pre.length = pos)
    (rest : List β) : getAt c (pre ++ (putAll c arr n ++ rest)) pos i = arr i := by
  obtain ⟨rest', h⟩ := drop_putAll (c := c) arr hi rest
  subst hpos
  unfold getAt
  rw [← List.drop_drop, List.drop_left, h, c.get_put]

@[simp] theorem length_contents (arr : ℕ → α) (n : ℕ) : (contents arr n).length = n := by
  simp [contents]

theorem getElem?_contents {arr : ℕ → α} {n i : ℕ} (hi : i < n) : (contents arr n)[i]? = some (arr i) := by
  simp [contents, hi]

theorem contents_congr {arr arr' : ℕ → α} {n : ℕ} (h : ∀ i < n, arr i = arr' i) :
    contents arr n = contents arr' n :=
  List.map_congr_left fun i hi => h i (List.mem_range.1 hi)

/-- A value is written behind the others. -/
theorem contents_update (arr : ℕ → α) (n : ℕ) (x : α) :
    contents (Function.update arr n x) (n + 1) = contents arr n ++ [x] := by
  unfold contents
  rw [List.range_succ, List.map_append, List.map_singleton, Function.update_self]
  congr 1
  refine List.map_congr_left fun i hi => ?_
  have := List.mem_range.1 hi
  rw [Function.update_of_ne (by omega)]

end Records
