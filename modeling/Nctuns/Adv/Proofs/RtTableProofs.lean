import Mathlib.Data.List.Nodup
import Nctuns.Adv.RtTable

/-!
# Proofs about the routing table of ADV

`rmEntry` and each round of `refresh` erase by the last element, behind the node's own entry.
-/

namespace Adv.RtTable

open SwapErase

variable {t : RtTable}

theorem rmEntry_rows {i : ℕ} (h : i < t.rows.length) : (t.rmEntry i).rows = erase t.rows i := by
  unfold rmEntry
  rw [if_neg (Nat.not_le.2 h)]
  rcases List.eq_nil_or_concat t.rows with hnil | ⟨l, last, hrows⟩
  · rw [hnil] at h
    cases h
  · rw [hrows, List.concat_eq_append] at h ⊢
    rw [erase_concat]
    simp only [List.getLast?_append, List.getLast?_singleton, Option.some_or, List.length_append,
      List.length_singleton, Nat.add_sub_cancel]
    split
    · next hlast => rw [hlast, List.dropLast_concat, List.set_eq_of_length_le (Nat.le_refl _)]
    · next hlast =>
      rw [List.length_append, List.length_singleton] at h
      rw [List.set_append_left _ _ (by omega), List.dropLast_concat]

/-- A round of `refresh` removes a broken entry. -/
theorem refreshAt_eq (i : ℕ) :
    t.refreshAt i =
      match t.rows[i]? with
      | none => t
      | some r => if r.Valid then t else t.rmEntry i := by
  unfold refreshAt rmEntry
  cases hat : t.rows[i]? with
  | none => rfl
  | some r =>
    have hlt := (List.getElem?_eq_some_iff.1 hat).1
    dsimp only
    rw [if_neg (Nat.not_le.2 hlt)]
    exact ite_not _ _ _

theorem refreshAt_rows (i : ℕ) : (t.refreshAt i).rows = sweepAt rt_entry.Valid t.rows i := by
  rw [refreshAt_eq, sweepAt]
  cases hat : t.rows[i]? with
  | none => rfl
  | some r =>
    dsimp only
    split
    · rfl
    · exact rmEntry_rows (List.getElem?_eq_some_iff.1 hat).1

theorem refresh_rows : t.refresh.rows = sweep rt_entry.Valid t.rows 1 := by
  have hfold (l : List ℕ) (t : RtTable) :
      (l.foldl refreshAt t).rows = l.foldl (sweepAt rt_entry.Valid) t.rows := by
    induction l generalizing t with
    | nil => rfl
    | cons i l ih => rw [List.foldl_cons, List.foldl_cons, ih, refreshAt_rows]
  exact hfold _ t

/-- The rows of a table whose first row is the node's own. -/
theorem refresh_iff {own : rt_entry} {rest : List rt_entry} (hrows : t.rows = own :: rest) :
    t.refresh.rows.head? = some own ∧
      (t.refresh.rows.tail.Perm (rest.filter fun r => r.Valid) ↔ Closes rt_entry.Valid rest) := by
  obtain ⟨r, hr, hiff⟩ := sweep_perm_iff (p := rt_entry.Valid) [own] rest
  rw [refresh_rows, hrows]
  rw [List.singleton_append, List.length_singleton] at hr
  rw [hr]
  exact ⟨rfl, hiff⟩

theorem ifExist_isSome (dst : Addr) : (t.ifExist dst).isSome ↔ dst ∈ t.rows.map rt_entry.Dst_IP := by
  rw [ifExist, List.findIdx?_isSome, List.any_eq_true, List.mem_map]
  simp

theorem addEntry_distinct (h : t.Distinct) (dst nexthop : Addr) (metric seqNum : Int) (signHost : Addr)
    (recv : Bool) : (t.addEntry dst nexthop metric seqNum signHost recv).Distinct := by
  unfold addEntry
  split
  · exact h
  · next hnew =>
    rw [ifExist_isSome] at hnew
    dsimp only
    split
    · next i hi =>
      unfold Distinct
      rw [List.map_set]
      exact h.set hnew
    · unfold Distinct
      rw [List.map_append, List.map_singleton]
      exact List.nodup_append.2 ⟨h, List.nodup_singleton _, by
        intro a ha b hb hab
        obtain rfl := List.mem_singleton.1 hb
        exact hnew (hab ▸ ha)⟩

theorem rmEntry_exact {i : ℕ} (hi : 1 ≤ i) :
    (t.rmEntry i).rows.head? = t.rows.head? ∧ (t.rmEntry i).rows.Perm (t.rows.eraseIdx i) := by
  rcases Nat.lt_or_ge i t.rows.length with hlt | hge
  · rw [rmEntry_rows hlt]
    exact ⟨head?_erase hi hlt, erase_perm hlt⟩
  · rw [rmEntry, if_pos hge, List.eraseIdx_of_length_le hge]
    exact ⟨rfl, List.Perm.refl _⟩

/-- **Table maintenance** goes right exactly if no broken entry is moved into a hole. -/
theorem maintained_iff (own : rt_entry) (rest : List rt_entry) (h : RtTable.Distinct ⟨own :: rest⟩) :
    Maintained ⟨own :: rest⟩ ↔ Closes rt_entry.Valid rest := by
  obtain ⟨hown, hiff⟩ := refresh_iff (t := ⟨own :: rest⟩) rfl
  constructor
  · intro hm
    exact hiff.1 hm.refresh
  · intro hcloses
    exact ⟨hown, hiff.2 hcloses, addEntry_distinct h, fun i hi => rmEntry_exact hi⟩

/-- An entry for `dst` over the node 9, signed by `signHost`. -/
def entryFor (dst signHost : Addr) : rt_entry := ⟨dst, 9, 1, 4, signHost, true, 0, false⟩

/-- A valid entry comes into the place of a broken one. -/
theorem maintained_iff_hole :
    Maintained ⟨[entryFor 1 1, entryFor 2 1, entryFor 3 3]⟩ := by
  refine (maintained_iff (entryFor 1 1) [entryFor 2 1, entryFor 3 3] (by decide)).2 ?_
  exact (closes_cons_concat (l := []) (by decide)).2 ⟨by decide, closes_nil⟩

/-- A broken entry that comes into a hole stays. -/
theorem moved_entry_stays : ¬ Maintained ⟨[entryFor 1 1, entryFor 2 1, entryFor 3 1]⟩ := by
  intro h
  exact absurd h.refresh (by decide)

end Adv.RtTable
