import Mathlib.Data.List.Basic

/-!
# Records found by a key

The first record with a key is the one that is read, changed or removed.
-/

namespace Keyed

variable {κ ρ : Type*} [DecidableEq κ] {key : ρ → κ} {k j : κ} {f : ρ → ρ} {l l' : List ρ} {r : ρ}

/-- The first record with the key. -/
def get (key : ρ → κ) (k : κ) (l : List ρ) : Option ρ := l.find? fun r => decide (key r = k)

/-- The first record with the key is changed. -/
def update (key : ρ → κ) (k : κ) (f : ρ → ρ) : List ρ → List ρ
  | [] => []
  | r :: l => if key r = k then f r :: l else r :: update key k f l

/-- The first record with the key is removed. -/
def remove (key : ρ → κ) (k : κ) : List ρ → List ρ
  | [] => []
  | r :: l => if key r = k then l else r :: remove key k l

@[simp] theorem get_nil : get key k [] = none := rfl

@[simp] theorem get_cons (r : ρ) (l : List ρ) :
    get key k (r :: l) = if key r = k then some r else get key k l := by
  unfold get
  rw [List.find?_cons]
  by_cases h : key r = k <;> simp [h]

theorem get_append : get key k (l ++ l') = (get key k l).or (get key k l') := List.find?_append

theorem key_of_get (h : get key k l = some r) : key r = k := by
  simpa using List.find?_some h

theorem mem_of_get (h : get key k l = some r) : r ∈ l := List.mem_of_find?_eq_some h

theorem get_eq_none : get key k l = none ↔ ∀ r ∈ l, key r ≠ k := by
  simp [get, List.find?_eq_none]

/-- A change that keeps the key is seen under that key only. -/
theorem get_update (hf : ∀ r, key r = k → key (f r) = k) :
    get key j (update key k f l) = if j = k then (get key k l).map f else get key j l := by
  induction l with
  | nil => simp [update]
  | cons r l ih =>
    by_cases hr : key r = k
    · have hfr := hf r hr
      rw [update, if_pos hr]
      by_cases hj : j = k
      · subst hj
        simp [hfr, hr]
      · simp [hfr, hr, hj, Ne.symm hj]
    · rw [update, if_neg hr]
      by_cases hj : j = k
      · subst hj
        simp [hr, ih]
      · simp [hj, ih]

/-- Two changes under one key are one. -/
theorem update_update {g : ρ → ρ} (hg : ∀ r, key r = k → key (g r) = k) :
    update key k f (update key k g l) = update key k (fun r => f (g r)) l := by
  induction l with
  | nil => rfl
  | cons r l ih =>
    simp only [update]
    by_cases hr : key r = k
    · rw [if_pos hr, update, if_pos (hg r hr), if_pos hr]
    · rw [if_neg hr, update, if_neg hr, if_neg hr, ih]

theorem map_update (hf : ∀ r, key r = k → key (f r) = k) : (update key k f l).map key = l.map key := by
  induction l with
  | nil => rfl
  | cons r l ih =>
    unfold update
    by_cases hr : key r = k
    · rw [if_pos hr, List.map_cons, List.map_cons, hf r hr, hr]
    · rw [if_neg hr, List.map_cons, List.map_cons, ih]

/-- Where the keys are distinct, a change reaches all records with the key. -/
theorem mem_update (hnd : (l.map key).Nodup) {q : ρ} (hq : q ∈ update key k f l) :
    (∃ r, get key k l = some r ∧ q = f r) ∨ (q ∈ l ∧ key q ≠ k) := by
  induction l with
  | nil => cases hq
  | cons r l ih =>
    rw [List.map_cons, List.nodup_cons] at hnd
    unfold update at hq
    rw [get_cons]
    by_cases hr : key r = k
    · rw [if_pos hr] at hq ⊢
      rcases List.mem_cons.1 hq with rfl | hq
      · exact Or.inl ⟨r, rfl, rfl⟩
      · refine Or.inr ⟨List.mem_cons_of_mem _ hq, fun hk => hnd.1 ?_⟩
        rw [hr, ← hk]
        exact List.mem_map_of_mem hq
    · rw [if_neg hr] at hq ⊢
      rcases List.mem_cons.1 hq with rfl | hq
      · exact Or.inr ⟨List.mem_cons_self, hr⟩
      · exact (ih hnd.2 hq).imp id fun hq => ⟨List.mem_cons_of_mem _ hq.1, hq.2⟩

/-- What the records hold, before and after a change. -/
theorem count_filterMap_update {α : Type*} [DecidableEq α] {g : ρ → Option α} (h : get key k l = some r)
    (x : α) : ((update key k f l).filterMap g).count x + (g r).toList.count x =
      (l.filterMap g).count x + (g (f r)).toList.count x := by
  have hcons : ∀ (q : ρ) (l : List ρ),
      ((q :: l).filterMap g).count x = (g q).toList.count x + (l.filterMap g).count x := by
    intro q l
    rw [List.filterMap_cons]
    cases g q with
    | none => simp
    | some y => simp [List.count_cons, Nat.add_comm]
  induction l with
  | nil => cases h
  | cons q l ih =>
    unfold update
    rw [get_cons] at h
    by_cases hq : key q = k
    · rw [if_pos hq] at h ⊢
      obtain rfl := Option.some.inj h
      rw [hcons, hcons]
      omega
    · rw [if_neg hq] at h ⊢
      have hrest := ih h
      rw [hcons, hcons]
      omega

theorem remove_sublist : (remove key k l).Sublist l := by
  induction l with
  | nil => exact .slnil
  | cons r l ih =>
    unfold remove
    by_cases hr : key r = k
    · rw [if_pos hr]
      exact List.sublist_cons_self r l
    · rw [if_neg hr]
      exact ih.cons_cons r

/-- Removing takes one record, so only where the keys are distinct it takes them all. -/
theorem get_remove (hnd : (l.map key).Nodup) :
    get key j (remove key k l) = if j = k then none else get key j l := by
  induction l with
  | nil => simp [remove]
  | cons r l ih =>
    rw [List.map_cons, List.nodup_cons] at hnd
    by_cases hr : key r = k
    · rw [remove, if_pos hr]
      by_cases hj : j = k
      · subst hj
        rw [if_pos rfl, get_eq_none]
        intro r' hr' heq
        exact hnd.1 (hr ▸ heq ▸ List.mem_map_of_mem hr')
      · rw [if_neg hj, get_cons, if_neg fun h => hj (h.symm.trans hr)]
    · rw [remove, if_neg hr, get_cons, get_cons, ih hnd.2]
      by_cases hj : j = k
      · rw [if_pos hj, if_pos hj, if_neg fun h => hr (h.trans hj)]
      · rw [if_neg hj, if_neg hj]

/-- **Loop rule.** A loop over records with keys of their own, each of which changes what is seen under
    its key only, changes every key at most once. -/
theorem view_foldl {σ ν : Type*} {P : σ → Prop} {view : σ → κ → ν} {step : σ → ρ → σ} {g : ν → ν}
    (hstep : ∀ s r, P s → P (step s r) ∧
      ∀ k, view (step s r) k = if k = key r then g (view s k) else view s k)
    {l : List ρ} (hnd : (l.map key).Nodup) {s : σ} (h : P s) :
    P (l.foldl step s) ∧
      ∀ k, view (l.foldl step s) k = if k ∈ l.map key then g (view s k) else view s k := by
  induction l generalizing s with
  | nil => exact ⟨h, fun _ => (if_neg List.not_mem_nil).symm⟩
  | cons r l ih =>
    rw [List.map_cons, List.nodup_cons] at hnd
    obtain ⟨hP, hview⟩ := hstep s r h
    obtain ⟨hP', hview'⟩ := ih hnd.2 hP
    refine ⟨hP', fun k => ?_⟩
    rw [List.foldl_cons, hview' k, hview k, List.map_cons]
    by_cases hk : k = key r
    · have hnot : k ∉ l.map key := hk ▸ hnd.1
      rw [if_neg hnot, if_pos hk, if_pos (hk ▸ List.mem_cons_self)]
    · have hiff : k ∈ key r :: l.map key ↔ k ∈ l.map key := by
        rw [List.mem_cons]
        exact or_iff_right hk
      rw [if_neg hk]
      exact (if_congr hiff rfl rfl).symm

end Keyed
