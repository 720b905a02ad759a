import Mathlib.Data.Nat.ModEq
import Nctuns.Lib.Memory

/-!
# Rings of memory

A ring of `size` cells holds a list from the cell `front` on, wrapping around at the end. `readAt`
and `writeAt` copy in at most two parts, up to the end and from the start.
-/

namespace Ring

open Memory

variable {α : Type*} {m : Nat → α} {size front rear n k : Nat} {l src : List α}

/-- The cells from `front` on hold `l`. -/
structure Holds (m : Nat → α) (size front : Nat) (l : List α) : Prop where
  fits : l.length ≤ size
  cell : ∀ k, (h : k < l.length) → m ((front + k) % size) = l[k]

/-- The `n` cells from `front` on. -/
def readAt (m : Nat → α) (size front n : Nat) : List α :=
  if n ≤ size - front then read (fun k => m (front + k)) n
  else read (fun k => m (front + k)) (size - front) ++ read m (n - (size - front))

/-- `n` cells of `src` written from `rear` on. -/
def writeAt (m : Nat → α) (size rear : Nat) (src : Nat → α) (n : Nat) : Nat → α :=
  if n ≤ size - rear then copy m rear src n
  else copy (copy m rear src (size - rear)) 0 (fun k => src (size - rear + k)) (n - (size - rear))

/-- The cell at distance `k` from `front`. -/
theorem index_eq (hf : front < size) (hk : k < size) :
    (front + k) % size = if k < size - front then front + k else k - (size - front) := by
  split_ifs with h
  · exact Nat.mod_eq_of_lt (by omega)
  · rw [Nat.mod_eq_sub_mod (by omega), Nat.mod_eq_of_lt (by omega)]; omega

theorem length_readAt : (readAt m size front n).length = n := by
  unfold readAt
  split_ifs with h
  · exact length_read _ n
  · rw [List.length_append, length_read, length_read]; omega

theorem getElem_readAt (hf : 0 < size → front < size) (hn : n ≤ size) (hk : k < (readAt m size front n).length) :
    (readAt m size front n)[k] = m ((front + k) % size) := by
  have hkn : k < n := by rwa [length_readAt] at hk
  rw [index_eq (hf (by omega)) (by omega)]
  by_cases h : n ≤ size - front
  · have heq : readAt m size front n = Memory.read (fun k => m (front + k)) n := if_pos h
    rw [List.getElem_of_eq heq hk, getElem_read, if_pos (by omega)]
  · have heq : readAt m size front n = Memory.read (fun k => m (front + k)) (size - front) ++
        Memory.read m (n - (size - front)) := if_neg h
    rw [List.getElem_of_eq heq hk]
    by_cases h' : k < size - front
    · rw [List.getElem_append_left (by rw [length_read]; exact h'), getElem_read, if_pos h']
    · rw [List.getElem_append_right (by rw [length_read]; omega), getElem_read, if_neg h',
        length_read]

/-- Reading gives the front of the list. -/
theorem Holds.read (h : Holds m size front l) (hf : 0 < size → front < size) (hn : n ≤ l.length) :
    readAt m size front n = l.take n := by
  have hfits := h.fits
  refine List.ext_getElem (by rw [length_readAt, List.length_take]; omega) fun k hk hk' => ?_
  have hkn : k < n := by rwa [length_readAt] at hk
  rw [getElem_readAt hf (by omega) hk, List.getElem_take]
  exact h.cell k (by omega)

/-- What is left behind the front of the list. -/
theorem Holds.drop (h : Holds m size front l) (n : Nat) :
    Holds m size ((front + n) % size) (l.drop n) where
  fits := by rw [List.length_drop]; have := h.fits; omega
  cell k hk := by
    rw [List.length_drop] at hk
    rw [List.getElem_drop, ← h.cell (n + k) (by omega), Nat.mod_add_mod, Nat.add_assoc]

/-- The written cells, seen from `rear`, and the others. -/
theorem writeAt_apply {f : Nat → α} (hr : rear < size) (hn : n ≤ size) (hk : k < size) :
    writeAt m size rear f n ((rear + k) % size) =
      if k < n then f k else m ((rear + k) % size) := by
  rw [index_eq hr hk]
  unfold writeAt
  split_ifs with h1 h2 h3 h3 h2 h3 h3
  · rw [copy_inside (by omega) (by omega)]; congr 1; omega
  · rw [copy_outside (by omega)]
  · omega
  · rw [copy_outside (by omega)]
  · rw [copy_outside (by omega), copy_inside (by omega) (by omega)]; congr 1; omega
  · omega
  · rw [copy_inside (by omega) (by omega)]; congr 1; omega
  · rw [copy_outside (by omega), copy_outside (by omega)]

/-- Writing behind the list appends to it. -/
theorem Holds.write {behind : Nat → α} (h : Holds m size front l)
    (hrear : rear = (front + l.length) % size) (hfits : l.length + src.length ≤ size) :
    Holds (writeAt m size rear (ofList src behind) src.length) size front (l ++ src) where
  fits := by rw [List.length_append]; exact hfits
  cell k hk := by
    rw [List.length_append] at hk
    have hr : rear < size := hrear ▸ Nat.mod_lt _ (by omega)
    -- the distance of the cell from `rear`
    obtain ⟨d, hd, hdk⟩ : ∃ d, d < size ∧ (d = k - l.length ∧ l.length ≤ k ∨
        k < l.length ∧ d + l.length = size + k) := by
      by_cases hkl : l.length ≤ k
      · exact ⟨k - l.length, by omega, .inl ⟨rfl, hkl⟩⟩
      · exact ⟨size + k - l.length, by omega, .inr ⟨by omega, by omega⟩⟩
    have hcell : (front + k) % size = (rear + d) % size := by
      rw [hrear, Nat.mod_add_mod]
      rcases hdk with ⟨hd, hkl⟩ | ⟨hkl, hd⟩
      · congr 1; omega
      · rw [show front + l.length + d = front + k + size by omega, Nat.add_mod_right]
    rw [hcell, writeAt_apply hr (by omega) hd]
    rcases hdk with ⟨hd, hkl⟩ | ⟨hkl, hd⟩
    · rw [if_pos (by omega), List.getElem_append_right hkl, ofList_of_lt (by omega)]
      congr 1
    · rw [if_neg (by omega), List.getElem_append_left hkl, ← hcell, h.cell k hkl]

end Ring
