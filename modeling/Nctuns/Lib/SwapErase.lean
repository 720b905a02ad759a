import Mathlib.Data.List.Perm.Basic

/-!
# Erasing from an array by its last element

An element is erased when the last one takes its place. A loop that erases all elements without a
property and goes on behind the hole does not look at what it has moved into it.
-/

namespace SwapErase

variable {α : Type*} (p : α → Prop) [DecidablePred p]

/-- An element is removed: the last one takes its place. -/
def erase (l : List α) (i : ℕ) : List α :=
  match l.getLast? with
  | none => l
  | some x => (l.set i x).dropLast

theorem erase_concat (l : List α) (x : α) (i : ℕ) : erase (l ++ [x]) i = l.set i x := by
  unfold erase
  rw [List.getLast?_append, List.getLast?_singleton, Option.some_or]
  dsimp only
  rcases Nat.lt_or_ge i l.length with hi | hi
  · rw [List.set_append_left _ _ hi, List.dropLast_concat]
  · rw [List.set_append_right _ _ hi, List.set_eq_of_length_le hi]
    rcases Nat.eq_zero_or_pos (i - l.length) with h0 | hpos
    · rw [h0, List.set_cons_zero, List.dropLast_concat]
    · rw [List.set_eq_of_length_le (by rwa [List.length_singleton]), List.dropLast_concat]

/-- Exactly the element is erased. -/
theorem erase_perm {l : List α} {i : ℕ} (h : i < l.length) : (erase l i).Perm (l.eraseIdx i) := by
  rcases List.eq_nil_or_concat l with rfl | ⟨l, x, rfl⟩
  · cases h
  rw [List.concat_eq_append] at h ⊢
  rw [erase_concat]
  rcases Nat.lt_or_ge i l.length with hi | hi
  · rw [List.eraseIdx_append_of_lt_length hi, List.set_eq_take_append_cons_drop, if_pos hi,
      List.eraseIdx_eq_take_drop_succ, List.append_assoc]
    exact (List.perm_append_singleton x (l.drop (i + 1))).symm.append_left (l.take i)
  · rw [List.set_eq_of_length_le hi, List.eraseIdx_append_of_length_le hi]
    have hlast : i - l.length = 0 := by
      rw [List.length_append, List.length_singleton] at h
      omega
    rw [hlast, List.eraseIdx_cons_zero, List.append_nil]

/-- The first element stays. -/
theorem head?_erase {l : List α} {i : ℕ} (hpos : 1 ≤ i) (h : i < l.length) :
    (erase l i).head? = l.head? := by
  rcases List.eq_nil_or_concat l with rfl | ⟨l, x, rfl⟩
  · cases h
  rw [List.concat_eq_append] at h ⊢
  rw [erase_concat]
  cases l with
  | nil => exact absurd h (Nat.not_lt.2 hpos)
  | cons y l =>
    obtain ⟨i, rfl⟩ : ∃ i', i = i' + 1 := ⟨i - 1, by omega⟩
    rfl

/-! ### The loop -/

/-- One round of the loop at the index. -/
def sweepAt (l : List α) (i : ℕ) : List α :=
  match l[i]? with
  | none => l
  | some x => if p x then l else erase l i

/-- The loop from index `i` on. -/
def sweep (l : List α) (i : ℕ) : List α := (List.range' i (l.length - i)).foldl (sweepAt p) l

/-- As many places before the end as there are elements without the property in front of such an element,
there is one with the property. -/
def Closes (l : List α) : Prop :=
  ∀ a x b, l = a ++ x :: b → ¬ p x → ∀ y ∈ b.reverse[a.countP fun z => ¬ p z]?, p y

variable {p}

theorem foldl_past {l : List α} {i : ℕ} (h : l.length ≤ i) (n : ℕ) :
    (List.range' i n).foldl (sweepAt p) l = l := by
  induction n generalizing i with
  | zero => rfl
  | succ n ih =>
    have hround : sweepAt p l i = l := by
      rw [sweepAt, List.getElem?_eq_none h]
    rw [List.range'_succ, List.foldl_cons, hround]
    exact ih (Nat.le_succ_of_le h)

theorem closes_nil : Closes p [] := by
  intro a x b h
  exact absurd h.symm (List.append_ne_nil_of_right_ne_nil a (List.cons_ne_nil x b))

theorem closes_cons {x : α} {l : List α} (hx : p x) : Closes p (x :: l) ↔ Closes p l := by
  have hcount (a : List α) : (x :: a).countP (fun z => ¬ p z) = a.countP fun z => ¬ p z :=
    List.countP_cons_of_neg (by simpa using hx)
  constructor
  · intro h a z b hl hz y hy
    refine h (x :: a) z b (by rw [hl]; rfl) hz y ?_
    rwa [hcount]
  · intro h a z b hl hz y hy
    cases a with
    | nil =>
      obtain ⟨rfl, -⟩ := List.cons.inj hl
      exact absurd hx hz
    | cons x' a =>
      obtain ⟨rfl, hrest⟩ := List.cons.inj hl
      rw [hcount] at hy
      exact h a z b hrest hz y hy

theorem closes_singleton (x : α) : Closes p [x] := by
  intro a z b hl hz y hy
  cases a with
  | nil =>
    obtain ⟨-, rfl⟩ := List.cons.inj hl
    cases hy
  | cons x' a => exact absurd (List.cons.inj hl).2.symm (by simp)

theorem closes_cons_concat {x y : α} {l : List α} (hx : ¬ p x) :
    Closes p (x :: (l ++ [y])) ↔ p y ∧ Closes p l := by
  have hcount (a : List α) : (x :: a).countP (fun z => ¬ p z) = a.countP (fun z => ¬ p z) + 1 :=
    List.countP_cons_of_pos (by simpa using hx)
  constructor
  · intro h
    have hy : p y := h [] x (l ++ [y]) rfl hx y (by simp)
    refine ⟨hy, ?_⟩
    intro a z b hl hz w hw
    refine h (x :: a) z (b ++ [y]) (by simp [hl]) hz w ?_
    rw [hcount, List.reverse_concat, List.getElem?_cons_succ]
    exact hw
  · rintro ⟨hy, h⟩ a z b hl hz w hw
    cases a with
    | nil =>
      obtain ⟨rfl, rfl⟩ := List.cons.inj hl
      rw [List.countP_nil, List.reverse_concat, List.getElem?_cons_zero, Option.mem_some] at hw
      exact hw ▸ hy
    | cons x' a =>
      obtain ⟨rfl, hrest⟩ := List.cons.inj hl
      rcases List.eq_nil_or_concat b with rfl | ⟨b, y', rfl⟩
      · cases hw
      · have hsplit : l ++ [y] = (a ++ z :: b) ++ [y'] := hrest.trans (by simp)
        obtain ⟨rfl, -⟩ := List.append_inj' hsplit rfl
        rw [List.concat_eq_append] at hw
        rw [hcount, List.reverse_concat, List.getElem?_cons_succ] at hw
        exact h a z b rfl hz w hw

/-- The loop from the end of `front` on. -/
theorem foldl_sweepAt {n : ℕ} (front : List α) {l : List α} (h : l.length ≤ n) :
    ∃ r, (List.range' front.length n).foldl (sweepAt p) (front ++ l) = front ++ r ∧
      (r.Perm (l.filter fun x => p x) ↔ Closes p l) := by
  induction n generalizing front l with
  | zero =>
    obtain rfl := List.length_eq_zero_iff.1 (Nat.le_zero.1 h)
    exact ⟨[], rfl, by simp [closes_nil]⟩
  | succ n ih =>
    cases l with
    | nil =>
      refine ⟨[], ?_, by simp [closes_nil]⟩
      rw [List.append_nil]
      exact foldl_past (Nat.le_refl _) _
    | cons x l =>
      have hat : (front ++ x :: l)[front.length]? = some x := by simp
      rw [List.range'_succ, List.foldl_cons, sweepAt, hat]
      dsimp only
      by_cases hx : p x
      · rw [if_pos hx]
        obtain ⟨r, hr, hiff⟩ := ih (front ++ [x]) (Nat.le_of_succ_le_succ h)
        rw [List.length_append, List.length_singleton, List.append_assoc, List.singleton_append] at hr
        refine ⟨x :: r, by rw [hr, List.append_assoc, List.singleton_append], ?_⟩
        rw [List.filter_cons_of_pos (by simpa using hx), List.perm_cons, closes_cons hx]
        exact hiff
      · rw [if_neg hx]
        rcases List.eq_nil_or_concat l with rfl | ⟨l, y, rfl⟩
        · rw [erase_concat, List.set_eq_of_length_le (Nat.le_refl _)]
          refine ⟨[], by rw [foldl_past (Nat.le_succ _), List.append_nil], ?_⟩
          rw [List.filter_cons_of_neg (by simpa using hx)]
          simp [closes_singleton]
        · -- the last element comes into the hole and is not looked at
          rw [List.concat_eq_append] at h ⊢
          have herase : erase (front ++ x :: (l ++ [y])) front.length = front ++ [y] ++ l := by
            rw [← List.cons_append, ← List.append_assoc, erase_concat, List.set_append_right _ _ (Nat.le_refl _),
              Nat.sub_self, List.set_cons_zero, List.append_assoc, List.singleton_append]
          have hlen : l.length ≤ n := by
            simp only [List.length_cons, List.length_append] at h
            omega
          obtain ⟨r, hr, hiff⟩ := ih (front ++ [y]) hlen
          rw [List.length_append, List.length_singleton] at hr
          refine ⟨y :: r, by rw [herase, hr, List.append_assoc, List.singleton_append], ?_⟩
          rw [closes_cons_concat hx, ← hiff, List.filter_cons_of_neg (by simpa using hx), List.filter_append]
          by_cases hy : p y
          · rw [List.filter_cons_of_pos (by simpa using hy), List.filter_nil]
            constructor
            · intro hperm
              exact ⟨hy, (List.perm_cons y).1 (hperm.trans List.perm_append_comm)⟩
            · rintro ⟨-, hperm⟩
              exact ((List.perm_cons y).2 hperm).trans (List.perm_append_singleton y _).symm
          · constructor
            · intro hperm
              have hmem := hperm.subset List.mem_cons_self
              rw [← List.filter_append, List.mem_filter, decide_eq_true_iff] at hmem
              exact absurd hmem.2 hy
            · rintro ⟨hy', -⟩
              exact absurd hy' hy

/-- **The loop erases the elements without the property** exactly if none of them comes into a hole. -/
theorem sweep_perm_iff (front l : List α) :
    ∃ r, sweep p (front ++ l) front.length = front ++ r ∧
      (r.Perm (l.filter fun x => p x) ↔ Closes p l) := by
  have hlen : (front ++ l).length - front.length = l.length := by
    rw [List.length_append, Nat.add_sub_cancel_left]
  unfold sweep
  rw [hlen]
  exact foldl_sweepAt front (Nat.le_refl _)

end SwapErase
