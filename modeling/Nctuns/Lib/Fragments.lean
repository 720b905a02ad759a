import Mathlib.Data.List.Basic
import Mathlib.Data.Nat.ModEq

/-!
# Numbered fragments

Items are lists, sent whole or cut into a first piece, middle ones and a last one. Pieces are numbered
modulo `m`, but a reader looks at the number only where an item is cut. When fewer than `m` pieces in
a row are lost, the reader gives back items that a reader without losses gives back too.
-/

namespace Fragments

variable {α : Type*}

/-- A message in one piece, or a piece of one. -/
inductive Piece (α : Type*) where
  | whole (bs : List α)
  | first (bs : List α)
  | middle (bs : List α)
  | last (bs : List α)

/-- What is open after a piece, and the item given back, when no piece is ever lost. -/
def feed : Option (List α) → Piece α → Option (List α) × List (List α)
  | _, .whole bs => (none, [bs])
  | _, .first bs => (some bs, [])
  | opened, .middle bs => (opened.map (· ++ bs), [])
  | opened, .last bs => (none, (opened.map (· ++ bs)).toList)

/-- The messages that pieces complete, and what is open behind them. -/
def feedAll : Option (List α) → List (Piece α) → Option (List α) × List (List α)
  | opened, [] => (opened, [])
  | opened, p :: ps => ((feedAll (feed opened p).1 ps).1, (feed opened p).2 ++ (feedAll (feed opened p).1 ps).2)

theorem feedAll_append (opened : Option (List α)) (ps qs : List (Piece α)) :
    feedAll opened (ps ++ qs) =
      ((feedAll (feedAll opened ps).1 qs).1,
        (feedAll opened ps).2 ++ (feedAll (feedAll opened ps).1 qs).2) := by
  induction ps generalizing opened with
  | nil => rfl
  | cons p ps ih => simp [feedAll, ih]

/-- A reader of numbered pieces: what is open, and the number of the last piece of a cut item. -/
structure Reader (α : Type*) where
  opened : Option (List α)
  number : Nat

namespace Reader

/-- What is open for a piece with the number `n`. -/
def openFor (m : Nat) (r : Reader α) (n : Nat) : Option (List α) :=
  if n = (r.number + 1) % m then r.opened else none

/-- A reader takes a piece with a number, and forgets what was open if the number is not the next one.
    -/
def read (m : Nat) (r : Reader α) (n : Nat) : Piece α → Reader α × List (List α)
  | .whole bs => ({ r with opened := none }, [bs])
  | p => (⟨(feed (r.openFor m n) p).1, n⟩, (feed (r.openFor m n) p).2)

/-- The reader has read some of the first `t` pieces, but not the last `gap` of them; `tap` is what
    would be open had it read all. -/
structure Follows (m : Nat) (r : Reader α) (tap : Option (List α)) (t gap : Nat) : Prop where
  gap_lt : gap < m
  number : r.opened ≠ none → (r.number + 1 + gap) % m = t % m
  opened : r.opened ≠ none → gap = 0 → r.opened = tap

variable {m t gap : Nat} {r : Reader α} {tap : Option (List α)}

/-- What is open for the next piece is what would be open without losses, if anything is. -/
theorem Follows.openFor (h : r.Follows m tap t gap) :
    r.openFor m (t % m) = none ∨ (gap = 0 ∧ r.openFor m (t % m) = tap) := by
  unfold Reader.openFor
  by_cases hopen : r.opened = none
  · left
    rw [hopen, ite_self]
  · by_cases hn : t % m = (r.number + 1) % m
    · right
      have hsum := h.number hopen
      have hgap : gap = 0 := by
        have hlt := h.gap_lt
        rw [hn] at hsum
        have hmod : (r.number + 1 + gap) ≡ (r.number + 1 + 0) [MOD m] := hsum
        have := Nat.ModEq.add_left_cancel' _ hmod
        rwa [Nat.ModEq, Nat.mod_eq_of_lt hlt, Nat.zero_mod] at this
      rw [if_pos hn]
      exact ⟨hgap, h.opened hopen hgap⟩
    · left
      rw [if_neg hn]

theorem Follows.fresh (hm : 0 < m) (opened : Option (List α)) :
    Follows m ⟨opened, t % m⟩ opened (t + 1) 0 where
  gap_lt := hm
  number _ := by simp
  opened _ _ := rfl

theorem Follows.closed (number : Nat) (hgap : gap < m) :
    Follows m (⟨none, number⟩ : Reader α) tap t gap where
  gap_lt := hgap
  number h := absurd rfl h
  opened h := absurd rfl h

/-- **Reading.** The next piece gives back an item only if it does so without losses. -/
theorem Follows.read (h : r.Follows m tap t gap) (p : Piece α) :
    (r.read m (t % m) p).1.Follows m (feed tap p).1 (t + 1) 0 ∧
      (r.read m (t % m) p).2.Sublist (feed tap p).2 := by
  have hm : 0 < m := Nat.zero_lt_of_lt h.gap_lt
  cases p with
  | whole bs => exact ⟨.closed _ hm, .refl _⟩
  | first bs => exact ⟨.fresh hm _, .refl _⟩
  | middle bs =>
    rcases h.openFor with hopen | ⟨-, hopen⟩
    · simp only [Reader.read, hopen]
      exact ⟨.closed _ hm, .refl _⟩
    · simp only [Reader.read, hopen]
      exact ⟨.fresh hm _, .refl _⟩
  | last bs =>
    rcases h.openFor with hopen | ⟨-, hopen⟩
    · simp only [Reader.read, hopen]
      exact ⟨.closed _ hm, List.nil_sublist _⟩
    · simp only [Reader.read, hopen]
      exact ⟨.closed _ hm, .refl _⟩

theorem Follows.lose (h : r.Follows m tap t gap) (hgap : gap + 1 < m) (tap' : Option (List α)) :
    r.Follows m tap' (t + 1) (gap + 1) where
  gap_lt := hgap
  number hopen := by
    have hsum : (r.number + 1 + gap) ≡ t [MOD m] := h.number hopen
    exact hsum.add_right 1
  opened _ h := absurd h (Nat.succ_ne_zero _)

/-- A reader that misses nothing gives back every item. -/
theorem Follows.read_all (h : r.Follows m tap t 0) (hopened : r.opened = tap) (p : Piece α) :
    (r.read m (t % m) p).1.opened = (feed tap p).1 ∧
      (r.read m (t % m) p).2 = (feed tap p).2 := by
  have hopen : r.openFor m (t % m) = tap := by
    unfold Reader.openFor
    by_cases hnone : r.opened = none
    · rw [hnone, ite_self, ← hopened, hnone]
    · rw [if_pos (h.number hnone).symm, hopened]
  cases p <;> simp [Reader.read, feed, hopen]

end Reader

end Fragments
