import Mathlib.Data.ENat.Lattice

/-!
# Walks through a trellis

A walk goes from state to state, one symbol of a sequence at each step, and pays for each step. `best`
is the least cost of a walk to a state. `Follows` is a walk that comes at each step from the nearest of
the states it can come from, and ends in the nearest state: it need not be cheapest, and it is exactly
when `Decided` holds at each of its steps.
-/

/-- The state after a step, and what the step costs when a symbol is read. -/
structure Trellis (σ β γ : Type*) where
  next : σ → β → σ
  cost : σ → β → γ → ℕ

namespace Trellis

variable {σ β γ : Type*} (T : Trellis σ β γ) {s k : σ} {ms ms' : List β} {cs : List γ} {m : β} {c : γ}

/-- Where a walk ends. -/
def state (s : σ) (ms : List β) : σ := ms.foldl T.next s

@[simp] theorem state_append (s : σ) (ms ms' : List β) :
    T.state s (ms ++ ms') = T.state (T.state s ms) ms' := List.foldl_append ..

theorem state_concat : T.state s (ms ++ [m]) = T.next (T.state s ms) m := by simp [state]

/-- What a walk costs. -/
def total : σ → List β → List γ → ℕ
  | s, m :: ms, c :: cs => T.cost s m c + total (T.next s m) ms cs
  | _, [], _ => 0
  | _, _ :: _, [] => 0

theorem total_append {cs' : List γ} (h : ms.length = cs.length) :
    T.total s (ms ++ ms') (cs ++ cs') = T.total s ms cs + T.total (T.state s ms) ms' cs' := by
  induction ms generalizing s cs with
  | nil =>
    obtain rfl := List.length_eq_zero_iff.1 h.symm
    simp [total, state]
  | cons m ms ih =>
    cases cs with
    | nil => simp at h
    | cons c cs =>
      simp only [List.cons_append, total, state, List.foldl_cons]
      rw [ih (by simpa using h), Nat.add_assoc]
      rfl

theorem total_concat (h : ms.length = cs.length) :
    T.total s (ms ++ [m]) (cs ++ [c]) = T.total s ms cs + T.cost (T.state s ms) m c := by
  rw [total_append T h]
  rfl

/-! ## The least cost -/

/-- The walks over the whole of a sequence. -/
def walks (s : σ) (cs : List γ) (k : σ) : Set (List β) :=
  {ms | ms.length = cs.length ∧ T.state s ms = k}

/-- The least cost of a walk over a sequence to a state. -/
noncomputable def best (s : σ) (cs : List γ) (k : σ) : ℕ∞ :=
  ⨅ ms : T.walks s cs k, (T.total s ms.1 cs : ℕ∞)

variable {T}

theorem le_best_iff {d : ℕ∞} : d ≤ T.best s cs k ↔
    ∀ ms : List β, ms.length = cs.length → T.state s ms = k → d ≤ T.total s ms cs := by
  unfold best
  rw [le_iInf_iff]
  exact ⟨fun h ms hlen hk => h ⟨ms, hlen, hk⟩, fun h ms => h ms.1 ms.2.1 ms.2.2⟩

theorem best_le (h : ms.length = cs.length) : T.best s cs (T.state s ms) ≤ T.total s ms cs :=
  le_best_iff.1 le_rfl ms h rfl

theorem exists_best (h : T.best s cs k ≠ ⊤) :
    ∃ ms : List β, ms.length = cs.length ∧ T.state s ms = k ∧ T.best s cs k = T.total s ms cs := by
  rcases isEmpty_or_nonempty (T.walks s cs k) with hempty | hne
  · exact absurd (iInf_of_empty _) h
  · obtain ⟨ms, hms⟩ := ENat.exists_eq_iInf fun ms : T.walks s cs k => (T.total s ms.1 cs : ℕ∞)
    exact ⟨ms.1, ms.2.1, ms.2.2, hms.symm⟩

theorem best_nil [DecidableEq σ] : T.best s [] k = if k = s then 0 else ⊤ := by
  refine eq_of_forall_le_iff fun d => ?_
  rw [le_best_iff]
  constructor
  · intro h
    split
    · next hk => simpa [total] using h [] rfl hk.symm
    · exact le_top
  · intro h ms hlen hk
    obtain rfl := List.length_eq_zero_iff.1 hlen
    have hks : k = s := hk.symm
    simpa [hks, total] using h

/-- **One more step.** The least cost of a state comes from those of the states before it. -/
theorem le_best_concat_iff {d : ℕ∞} : d ≤ T.best s (cs ++ [c]) k ↔
    ∀ k' m, T.next k' m = k → d ≤ T.best s cs k' + T.cost k' m c := by
  rw [le_best_iff]
  constructor
  · intro h k' m hk
    rcases eq_or_ne (T.best s cs k') ⊤ with htop | hne
    · simp [htop]
    · obtain ⟨ms, hlen, rfl, hbest⟩ := exists_best hne
      have hd := h (ms ++ [m]) (by simp [hlen]) (by rw [state_concat, hk])
      rw [total_concat T hlen] at hd
      rw [hbest]
      exact_mod_cast hd
  · intro h ms hlen hk
    obtain ⟨ms', m, rfl⟩ : ∃ ms' m, ms = ms' ++ [m] := by
      rcases List.eq_nil_or_concat ms with rfl | ⟨ms', m, rfl⟩
      · simp at hlen
      · exact ⟨ms', m, List.concat_eq_append⟩
    have hlen' : ms'.length = cs.length := by simpa using hlen
    rw [state_concat] at hk
    rw [total_concat T hlen']
    push_cast
    exact (h _ _ hk).trans (by gcongr; exact best_le hlen')

theorem best_concat_le (k : σ) (m : β) :
    T.best s (cs ++ [c]) (T.next k m) ≤ T.best s cs k + T.cost k m c :=
  le_best_concat_iff.1 le_rfl k m rfl

/-! ## Cheapest walks -/

/-- No walk to the same state is cheaper. -/
def Optimal (T : Trellis σ β γ) (s : σ) (ms : List β) (cs : List γ) : Prop :=
  T.best s cs (T.state s ms) = T.total s ms cs

/-- The last step of a walk is the best one into its last state. -/
theorem optimal_concat_iff (h : ms.length = cs.length) :
    T.Optimal s (ms ++ [m]) (cs ++ [c]) ↔ T.Optimal s ms cs ∧
      ∀ k m', T.next k m' = T.next (T.state s ms) m →
        T.best s cs (T.state s ms) + T.cost (T.state s ms) m c ≤ T.best s cs k + T.cost k m' c := by
  unfold Optimal
  rw [state_concat, total_concat T h]
  constructor
  · intro hopt
    have hle : T.best s cs (T.state s ms) = T.total s ms cs := by
      refine le_antisymm (best_le h) ?_
      have hstep : T.best s (cs ++ [c]) (T.next (T.state s ms) m) ≤
          T.best s cs (T.state s ms) + T.cost (T.state s ms) m c := best_concat_le _ m
      rw [hopt] at hstep
      push_cast at hstep
      exact (ENat.add_le_add_iff_right (ENat.natCast_ne_top _)).1 hstep
    refine ⟨hle, fun k m' hk => ?_⟩
    rw [hle]
    exact_mod_cast hopt ▸ le_best_concat_iff.1 le_rfl k m' hk
  · rintro ⟨hopt, hleast⟩
    refine le_antisymm ?_ (le_best_concat_iff.2 fun k m' hk => ?_)
    · exact_mod_cast hopt ▸ best_concat_le (T := T) (T.state s ms) m
    · exact_mod_cast hopt ▸ hleast k m' hk

/-- Step `i` of a walk is the best one into the state that it leads to. -/
def Decided (T : Trellis σ β γ) (s : σ) (ms : List β) (cs : List γ) (i : ℕ) : Prop :=
  ∀ m c, ms[i]? = some m → cs[i]? = some c →
    ∀ k m', T.next k m' = T.next (T.state s (ms.take i)) m →
      T.best s (cs.take i) (T.state s (ms.take i)) + T.cost (T.state s (ms.take i)) m c ≤
        T.best s (cs.take i) k + T.cost k m' c

/-- **Cheapest walks.** A walk is cheapest if and only if all its steps are decided. -/
theorem optimal_iff (h : ms.length = cs.length) :
    T.Optimal s ms cs ↔ ∀ i < ms.length, T.Decided s ms cs i := by
  have hprefix : ∀ n ≤ ms.length, T.Optimal s (ms.take n) (cs.take n) ↔
      ∀ i < n, T.Decided s ms cs i := by
    intro n
    induction n with
    | zero =>
      intro _
      refine ⟨fun _ i hi => absurd hi (Nat.not_lt_zero i), fun _ => ?_⟩
      refine le_antisymm (best_le (by simp)) ?_
      simp [total]
    | succ n ih =>
      intro hn
      have hm : n < ms.length := hn
      have hc : n < cs.length := h ▸ hn
      rw [List.take_add_one, List.take_add_one, List.getElem?_eq_getElem hm,
        List.getElem?_eq_getElem hc, Option.toList_some, Option.toList_some,
        optimal_concat_iff (by simp [h]), ih (by omega)]
      have hlast : T.Decided s ms cs n ↔ ∀ k m', T.next k m' = T.next (T.state s (ms.take n)) ms[n] →
          T.best s (cs.take n) (T.state s (ms.take n)) + T.cost (T.state s (ms.take n)) ms[n] cs[n] ≤
            T.best s (cs.take n) k + T.cost k m' cs[n] := by
        unfold Decided
        rw [List.getElem?_eq_getElem hm, List.getElem?_eq_getElem hc]
        exact ⟨fun hd => hd _ _ rfl rfl, fun hd m c hm hc => by cases hm; cases hc; exact hd⟩
      rw [← hlast]
      constructor
      · rintro ⟨hall, hdec⟩ i hi
        rcases Nat.lt_or_eq_of_le (Nat.le_of_lt_succ hi) with hlt | rfl
        · exact hall i hlt
        · exact hdec
      · intro hall
        exact ⟨fun i hi => hall i (Nat.lt_succ_of_lt hi), hall n (Nat.lt_succ_self n)⟩
  have hall := hprefix ms.length le_rfl
  rwa [List.take_length, h, List.take_length, ← h] at hall

/-! ## Walks back from the nearest state -/

section Follows

variable [LinearOrder σ]

/-- The first of the least among some states. -/
def FirstLeast (f : σ → ℕ∞) (S : σ → Prop) (k : σ) : Prop :=
  S k ∧ ∀ k', S k' → f k ≤ f k' ∧ (k' < k → f k < f k')

theorem FirstLeast.unique {f : σ → ℕ∞} {S : σ → Prop} {k k' : σ} (h : FirstLeast f S k)
    (h' : FirstLeast f S k') : k = k' := by
  rcases lt_trichotomy k k' with hlt | heq | hgt
  · exact absurd ((h'.2 k h.1).2 hlt) (h.2 k' h'.1).1.not_gt
  · exact heq
  · exact absurd ((h.2 k' h'.1).2 hgt) (h'.2 k h.1).1.not_gt

/-- The walk ends in the first of the nearest states, and comes at each step from the first of the
    nearest states that lead to the next one. -/
structure Follows (T : Trellis σ β γ) (s : σ) (ms : List β) (cs : List γ) : Prop where
  length : ms.length = cs.length
  last : FirstLeast (T.best s cs) (fun _ => True) (T.state s ms)
  back : ∀ i m, ms[i]? = some m → FirstLeast (T.best s (cs.take i))
    (fun k => ∃ m', T.next k m' = T.next (T.state s (ms.take i)) m) (T.state s (ms.take i))

/-- There is one such walk at most. -/
theorem Follows.unique (hinj : ∀ k, Function.Injective (T.next k)) (h : T.Follows s ms cs)
    (h' : T.Follows s ms' cs) : ms = ms' := by
  have hlen : ms.length = ms'.length := h.length.trans h'.length.symm
  -- the states agree from the last one back
  have hstate : ∀ n ≤ ms.length, T.state s (ms.take (ms.length - n)) =
      T.state s (ms'.take (ms.length - n)) := by
    intro n
    induction n with
    | zero =>
      intro _
      rw [Nat.sub_zero, List.take_length, hlen, List.take_length]
      exact h.last.unique h'.last
    | succ n ih =>
      intro hn
      obtain ⟨i, hi⟩ : ∃ i, ms.length - n = i + 1 := ⟨ms.length - n - 1, by omega⟩
      have hm : i < ms.length := by omega
      have hm' : i < ms'.length := by omega
      have hnext := ih (by omega)
      rw [hi, List.take_add_one, List.take_add_one, List.getElem?_eq_getElem hm,
        List.getElem?_eq_getElem hm', Option.toList_some, Option.toList_some, state_concat,
        state_concat] at hnext
      rw [show ms.length - (n + 1) = i by omega]
      have hback := h.back i _ (List.getElem?_eq_getElem hm)
      have hback' := h'.back i _ (List.getElem?_eq_getElem hm')
      rw [← hnext] at hback'
      exact hback.unique hback'
  refine List.ext_getElem hlen fun i hi hi' => ?_
  have hat := hstate (ms.length - i) (by omega)
  have hsucc := hstate (ms.length - (i + 1)) (by omega)
  rw [show ms.length - (ms.length - i) = i by omega] at hat
  rw [show ms.length - (ms.length - (i + 1)) = i + 1 by omega, List.take_add_one, List.take_add_one,
    List.getElem?_eq_getElem hi, List.getElem?_eq_getElem hi', Option.toList_some,
    Option.toList_some, state_concat, state_concat, hat] at hsucc
  exact hinj _ hsucc

/-- **Cheapest of all.** A walk that is followed back costs no more than any other if and only if its
    steps are decided. -/
theorem Follows.nearest_iff (h : T.Follows s ms cs) :
    (∀ ms' : List β, ms'.length = cs.length → T.total s ms cs ≤ T.total s ms' cs) ↔
      ∀ i < ms.length, T.Decided s ms cs i := by
  rw [← optimal_iff h.length]
  constructor
  · intro hall
    refine le_antisymm (best_le h.length) (le_best_iff.2 fun ms' hlen _ => ?_)
    exact_mod_cast hall ms' hlen
  · intro hopt ms' hlen
    have hle := (h.last.2 (T.state s ms') trivial).1.trans (best_le hlen)
    rw [hopt] at hle
    exact_mod_cast hle

omit [LinearOrder σ] in
/-- Two walks that cost nothing are the same if no two steps from a state do. -/
theorem eq_of_total_eq_zero
    (hdet : ∀ c ∈ cs, ∀ k m m', T.cost k m c = 0 → T.cost k m' c = 0 → m = m')
    (hlen : ms.length = cs.length) (hlen' : ms'.length = cs.length) (h : T.total s ms cs = 0)
    (h' : T.total s ms' cs = 0) : ms = ms' := by
  induction cs generalizing s ms ms' with
  | nil => rw [List.length_eq_zero_iff.1 hlen, List.length_eq_zero_iff.1 hlen']
  | cons c cs ih =>
    obtain ⟨m, ms, rfl⟩ := List.exists_cons_of_length_eq_add_one hlen
    obtain ⟨m', ms', rfl⟩ := List.exists_cons_of_length_eq_add_one hlen'
    obtain ⟨hm, hms⟩ := Nat.add_eq_zero_iff.1 h
    obtain ⟨hm', hms'⟩ := Nat.add_eq_zero_iff.1 h'
    obtain rfl := hdet c List.mem_cons_self s m m' hm hm'
    rw [ih (fun c' hc' => hdet c' (List.mem_cons_of_mem c hc')) (by simpa using hlen)
      (by simpa using hlen') hms hms']

/-- **No error.** A walk that costs nothing is followed back. -/
theorem Follows.of_total_eq_zero
    (hdet : ∀ c ∈ cs, ∀ k m m', T.cost k m c = 0 → T.cost k m' c = 0 → m = m')
    (hlen : ms.length = cs.length) (h : T.total s ms cs = 0) : T.Follows s ms cs := by
  have hprefix : ∀ i ≤ ms.length, ∀ S : σ → Prop, S (T.state s (ms.take i)) →
      FirstLeast (T.best s (cs.take i)) S (T.state s (ms.take i)) := by
    intro i hi S hS
    have hleni : (ms.take i).length = (cs.take i).length := by simp [hlen]
    have hzero : T.total s (ms.take i) (cs.take i) = 0 := by
      have hsplit : T.total s (ms.take i ++ ms.drop i) (cs.take i ++ cs.drop i) = _ :=
        total_append T hleni
      rw [List.take_append_drop, List.take_append_drop, h] at hsplit
      omega
    have hbest : T.best s (cs.take i) (T.state s (ms.take i)) = 0 := by
      refine le_antisymm ((best_le hleni).trans ?_) zero_le
      rw [hzero]
      rfl
    refine ⟨hS, fun k _ => ⟨hbest ▸ zero_le, fun hlt => ?_⟩⟩
    rw [hbest, pos_iff_ne_zero]
    intro hk
    have hne : T.best s (cs.take i) k ≠ ⊤ := by
      rw [hk]
      exact ENat.zero_ne_top
    obtain ⟨ms', hlen', hstate, htotal⟩ := exists_best hne
    rw [hk] at htotal
    have heq := eq_of_total_eq_zero (fun c hc => hdet c (List.mem_of_mem_take hc)) hlen' hleni
      (by exact_mod_cast htotal.symm) hzero
    rw [← hstate, heq] at hlt
    exact lt_irrefl _ hlt
  refine ⟨hlen, ?_, fun i m hm => ?_⟩
  · have hall := hprefix ms.length le_rfl (fun _ => True) trivial
    rwa [List.take_length, hlen, List.take_length] at hall
  · exact hprefix i (List.getElem?_eq_some_iff.1 hm).1.le _ ⟨m, rfl⟩

end Follows

end Trellis
