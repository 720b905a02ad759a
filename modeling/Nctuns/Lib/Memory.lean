import Mathlib.Data.List.Basic

/-!
# Blocks of memory

A block of memory is a function from offsets to cells, of which only the first few belong to the
block. `copy` writes a part of it, `read` reads its beginning as a list.
-/

namespace Memory

/-- A byte of memory. -/
abbrev Byte := UInt8

variable {α : Type*} {m src : Nat → α} {off n k : Nat} {l : List α}

/-- The first `n` cells of `src` copied to `m` at the offset `off`. -/
def copy (m : Nat → α) (off : Nat) (src : Nat → α) (n : Nat) : Nat → α :=
  fun k => if off ≤ k ∧ k < off + n then src (k - off) else m k

/-- The first `n` cells of a block. -/
def read (m : Nat → α) (n : Nat) : List α := (List.range n).map m

/-- A block that holds a list, followed by what is behind it. -/
def ofList (l : List α) (behind : Nat → α) : Nat → α := fun k => l.getD k (behind k)

theorem copy_inside (h1 : off ≤ k) (h2 : k < off + n) : copy m off src n k = src (k - off) :=
  if_pos ⟨h1, h2⟩

theorem copy_outside (h : k < off ∨ off + n ≤ k) : copy m off src n k = m k :=
  if_neg (by omega)

theorem ofList_of_lt {behind : Nat → α} (h : k < l.length) : ofList l behind k = l[k] :=
  by simp [ofList, h]

@[simp] theorem length_read (m : Nat → α) (n : Nat) : (read m n).length = n := by simp [read]

@[simp] theorem read_zero (m : Nat → α) : read m 0 = [] := rfl

theorem head?_read (h : 0 < n) : (read m n).head? = some (m 0) := by
  obtain ⟨n, rfl⟩ : ∃ k, n = k + 1 := ⟨n - 1, by omega⟩
  rw [read, List.range_succ_eq_map]
  rfl

theorem getElem_read (h : k < (read m n).length) : (read m n)[k] = m k := by simp [read]

theorem read_congr {m' : Nat → α} (h : ∀ k < n, m k = m' k) : read m n = read m' n :=
  List.map_congr_left fun k hk => h k (List.mem_range.1 hk)

theorem read_add (m : Nat → α) (n k : Nat) :
    read m (n + k) = read m n ++ read (fun j => m (n + j)) k := by
  rw [read, List.range_add, List.map_append, List.map_map]
  rfl

/-- Reading back a list from a block that holds it. -/
theorem read_eq (h : ∀ k, (hk : k < l.length) → m k = l[k]) : read m l.length = l := by
  refine List.ext_getElem (length_read m _) fun k hk hk' => ?_
  rw [getElem_read, h k hk']

theorem read_ofList {behind : Nat → α} (h : off + n ≤ l.length) :
    read (fun k => ofList l behind (off + k)) n = (l.drop off).take n := by
  refine List.ext_getElem (by simp; omega) fun k hk _ => ?_
  have hk' : k < n := by simpa using hk
  rw [getElem_read, ofList_of_lt (by omega), List.getElem_take, List.getElem_drop]

theorem read_ofList_take {behind : Nat → α} (h : n ≤ l.length) :
    read (ofList l behind) n = l.take n := by
  have hread : read (fun k => ofList l behind (0 + k)) n = (l.drop 0).take n :=
    read_ofList (by omega)
  simpa using hread

end Memory
