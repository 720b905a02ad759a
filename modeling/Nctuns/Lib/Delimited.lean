import Mathlib.Data.List.Basic
import Mathlib.Logic.Function.Basic

/-!
# Delimited frames

Cells come in on several flows. A frame is a list of cells of which the last one, and no other, says
that it is the last. `collect` gathers the cells of each flow until a frame is complete.
-/

namespace Delimited

variable {F κ : Type*} [DecidableEq F] {last : κ → Bool} {buf : F → List κ} {as : List (F × κ)}

/-- The last element and no other one ends the frame. -/
def IsFrame (last : κ → Bool) (l : List κ) : Prop :=
  ∃ body c, l = body ++ [c] ∧ (∀ x ∈ body, last x = false) ∧ last c = true

/-- The complete frames with their flows, in the order in which they are completed. -/
def collect (last : κ → Bool) : (F → List κ) → List (F × κ) → List (F × List κ)
  | _, [] => []
  | buf, (f, c) :: as =>
    if last c then (f, buf f ++ [c]) :: collect last (Function.update buf f []) as
    else collect last (Function.update buf f (buf f ++ [c])) as

/-- Two lists are equal up to the first last cell and behind it. -/
theorem first_last_unique {l l' r r' : List κ} {c c' : κ} (h : l ++ c :: r = l' ++ c' :: r')
    (hl : ∀ x ∈ l, last x = false) (hl' : ∀ x ∈ l', last x = false) (hc : last c = true)
    (hc' : last c' = true) : l = l' ∧ c = c' ∧ r = r' := by
  induction l generalizing l' with
  | nil =>
    cases l' with
    | nil => exact ⟨rfl, List.cons.inj h⟩
    | cons x l' =>
      obtain ⟨rfl, -⟩ := List.cons.inj h
      exact absurd (hl' c (List.mem_cons_self ..)) (by rw [hc]; decide)
  | cons x l ih =>
    cases l' with
    | nil =>
      obtain ⟨rfl, -⟩ := List.cons.inj h
      exact absurd (hl x (List.mem_cons_self ..)) (by rw [hc']; decide)
    | cons x' l' =>
      obtain ⟨rfl, htail⟩ := List.cons.inj h
      obtain ⟨rfl, hrest⟩ := ih htail (fun y hy => hl y (List.mem_cons_of_mem _ hy))
        (fun y hy => hl' y (List.mem_cons_of_mem _ hy))
      exact ⟨rfl, hrest⟩

/-- **Collecting undoes the interleaving.** If the cells of a flow, those already in its buffer
    first, are the frames `frames` one after another, then these are the frames collected. -/
theorem collect_flow (f : F) {frames : List (List κ)} (hframes : ∀ l ∈ frames, IsFrame last l)
    (hbuf : ∀ x ∈ buf f, last x = false)
    (h : buf f ++ (as.filter (·.1 = f)).map Prod.snd = frames.flatten) :
    ((collect last buf as).filter (·.1 = f)).map Prod.snd = frames := by
  induction as generalizing buf frames with
  | nil =>
    cases frames with
    | nil => rfl
    | cons l frames =>
      -- the last cell of `l` would have to be in the buffer
      obtain ⟨body, c, rfl, -, hc⟩ := hframes l (List.mem_cons_self ..)
      have hmem : c ∈ buf f := by
        have h' : buf f = (body ++ [c]) ++ frames.flatten := by simpa using h
        rw [h']; simp
      exact absurd (hbuf c hmem) (by rw [hc]; decide)
  | cons a as ih =>
    obtain ⟨g, c⟩ := a
    rcases eq_or_ne g f with rfl | hne
    · rw [List.filter_cons_of_pos (by simp), List.map_cons] at h
      unfold collect
      split_ifs with hc
      · cases frames with
        | nil => exact absurd h (by simp)
        | cons l frames =>
          obtain ⟨body, d, rfl, hbody, hd⟩ := hframes l (List.mem_cons_self ..)
          have h' : buf g ++ c :: (as.filter (·.1 = g)).map Prod.snd =
              body ++ d :: frames.flatten := by simpa using h
          obtain ⟨rfl, rfl, hrest⟩ := first_last_unique h' hbuf hbody hc hd
          rw [List.filter_cons_of_pos (by simp), List.map_cons]
          congr 1
          refine ih (fun l hl => hframes l (List.mem_cons_of_mem _ hl)) ?_ ?_
          · rw [Function.update_self]; exact fun x hx => absurd hx (List.not_mem_nil)
          · rw [Function.update_self]; exact hrest
      · have hcf : last c = false := by simpa using hc
        refine ih hframes ?_ ?_
        · rw [Function.update_self]
          intro x hx
          rcases List.mem_append.1 hx with hx | hx
          · exact hbuf x hx
          · rw [List.mem_singleton.1 hx, hcf]
        · rw [Function.update_self, List.append_assoc]; exact h
    · have hkeep : ∀ l, Function.update buf g l f = buf f := fun l =>
        Function.update_of_ne hne.symm l buf
      rw [List.filter_cons_of_neg (by simpa using hne)] at h
      unfold collect
      split_ifs with hc
      · rw [List.filter_cons_of_neg (by simpa using hne)]
        exact ih hframes (by rw [hkeep]; exact hbuf) (by rw [hkeep]; exact h)
      · exact ih hframes (by rw [hkeep]; exact hbuf) (by rw [hkeep]; exact h)

/-- Every frame collected belongs to a flow that sent cells. -/
theorem mem_collect {x : F × List κ} (h : x ∈ collect last buf as) : ∃ a ∈ as, a.1 = x.1 := by
  induction as generalizing buf with
  | nil => exact absurd h List.not_mem_nil
  | cons a as ih =>
    obtain ⟨g, c⟩ := a
    unfold collect at h
    split_ifs at h
    · rcases List.mem_cons.1 h with rfl | h
      · exact ⟨_, List.mem_cons_self .., rfl⟩
      · obtain ⟨a, ha, hx⟩ := ih h
        exact ⟨a, List.mem_cons_of_mem _ ha, hx⟩
    · obtain ⟨a, ha, hx⟩ := ih h
      exact ⟨a, List.mem_cons_of_mem _ ha, hx⟩

end Delimited
