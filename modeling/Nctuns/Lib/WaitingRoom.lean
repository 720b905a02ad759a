import Mathlib.Data.List.Perm.Basic

/-!
# Waiting rooms

A table with one list of waiting elements for a key, in any order: an element joins the list of its key,
and all that wait for a key leave together.
-/

namespace WaitingRoom

variable {κ α : Type*} {k k' : κ} {a : α} {x : List α} {l l' r : List (κ × List α)}

/-- What waits. -/
def held (l : List (κ × List α)) : List α := l.flatMap Prod.snd

theorem held_perm (h : l.Perm l') : (held l).Perm (held l') := h.flatMap_right _

/-- An empty list for a new key holds nothing. -/
theorem held_append_nil : held (l ++ [(k', [])]) = held l := by
  unfold held
  rw [List.flatMap_append]
  exact List.append_nil _

/-- One element joins. -/
theorem held_join (hl : l.Perm ((k, x) :: r)) (hl' : l'.Perm ((k, x ++ [a]) :: r)) :
    (held l').Perm (a :: held l) := by
  have hafter : (held l').Perm (x ++ [a] ++ held r) := held_perm hl'
  have hbefore : (held l).Perm (x ++ held r) := held_perm hl
  refine hafter.trans ?_
  rw [List.append_assoc, List.singleton_append]
  exact List.perm_middle.trans (hbefore.symm.cons a)

theorem held_leave (hl : l.Perm ((k, x) :: r)) (hl' : l'.Perm r) : (held l).Perm (x ++ held l') :=
  (held_perm hl).trans ((held_perm hl').symm.append_left x)

variable [DecidableEq κ]

/-- What waits for the key. -/
def waiting (k : κ) (l : List (κ × List α)) : List α := (l.filter fun e => e.1 = k).flatMap Prod.snd

theorem waiting_perm (k : κ) (h : l.Perm l') : (waiting k l).Perm (waiting k l') :=
  (h.filter _).flatMap_right _

theorem waiting_cons_ne (h : k' ≠ k) : waiting k ((k', x) :: l) = waiting k l := by
  unfold waiting
  rw [List.filter_cons_of_neg]
  rw [decide_eq_true_eq]
  exact h

theorem waiting_of_notMem (h : k ∉ l.map Prod.fst) : waiting k l = [] := by
  unfold waiting
  rw [List.filter_eq_nil_iff.2, List.flatMap_nil]
  intro e he
  rw [decide_eq_true_eq]
  intro hk
  exact h (List.mem_map.2 ⟨e, he, hk⟩)

theorem waiting_append_nil (k : κ) : waiting k (l ++ [(k', [])]) = waiting k l := by
  unfold waiting
  rw [List.filter_append, List.flatMap_append]
  have hnew : ∀ b, (([(k', [])] : List (κ × List α)).filter b).flatMap Prod.snd = [] := by
    intro b
    cases hb : b (k', []) with
    | true => rw [List.filter_cons_of_pos hb]; rfl
    | false => rw [List.filter_cons_of_neg (Bool.not_eq_true _ ▸ hb)]; rfl
  rw [hnew, List.append_nil]

theorem waiting_join (hl : l.Perm ((k, x) :: r)) (hl' : l'.Perm ((k, x ++ [a]) :: r)) (h : k' ≠ k) :
    (waiting k' l').Perm (waiting k' l) := by
  have hafter := waiting_perm k' hl'
  have hbefore := waiting_perm k' hl
  rw [waiting_cons_ne (Ne.symm h)] at hafter hbefore
  exact hafter.trans hbefore.symm

theorem waiting_leave_self (hl : l.Perm ((k, x) :: r)) (hl' : l'.Perm r)
    (hnodup : (l.map Prod.fst).Nodup) : waiting k l' = [] := by
  have hmap := (hl.map Prod.fst).nodup_iff.1 hnodup
  have hnot : k ∉ r.map Prod.fst := (List.nodup_cons.1 hmap).1
  have hperm := waiting_perm k hl'
  rw [waiting_of_notMem hnot] at hperm
  exact hperm.eq_nil

theorem waiting_leave_ne (hl : l.Perm ((k, x) :: r)) (hl' : l'.Perm r) (h : k' ≠ k) :
    (waiting k' l').Perm (waiting k' l) := by
  have hbefore := waiting_perm k' hl
  rw [waiting_cons_ne (Ne.symm h)] at hbefore
  exact (waiting_perm k' hl').trans hbefore.symm

end WaitingRoom
