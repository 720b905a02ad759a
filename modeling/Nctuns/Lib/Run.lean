import Mathlib.Data.List.Basic

/-!
# Runs of a step function

A program is driven by a list of inputs: `step s i` is the state after input `i`, or an error when
the program stops there. `Always` says that a property holds in every state of a run, `Along` that
a condition on the state and the input holds at every step of it. The rules below turn facts about
one step into facts about whole runs.
-/

namespace Run

variable {σ ι ε : Type*} {step : σ → ι → Except ε σ}

/-- The state after all inputs, or the error that stopped the run. -/
def exec (step : σ → ι → Except ε σ) : σ → List ι → Except ε σ
  | s, [] => .ok s
  | s, i :: is =>
    match step s i with
    | .ok s' => exec step s' is
    | .error e => .error e

/-- `P` holds in every state that the run from `s` visits, the first one included. -/
def Always (step : σ → ι → Except ε σ) (P : σ → Prop) : σ → List ι → Prop
  | s, [] => P s
  | s, i :: is => P s ∧ ∀ s', step s i = .ok s' → Always step P s' is

/-- `C` holds of the state and the input at every step that the run from `s` takes. -/
def Along (step : σ → ι → Except ε σ) (C : σ → ι → Prop) : σ → List ι → Prop
  | _, [] => True
  | s, i :: is => C s i ∧ ∀ s', step s i = .ok s' → Along step C s' is

instance Along.decidable {C : σ → ι → Prop} [∀ s i, Decidable (C s i)] :
    (s : σ) → (is : List ι) → Decidable (Along step C s is)
  | _, [] => .isTrue trivial
  | s, i :: is =>
    match hs : step s i with
    | .ok t =>
      have := Along.decidable (C := C) t is
      decidable_of_iff (C s i ∧ Along step C t is) (by simp [Along, hs])
    | .error e => decidable_of_iff (C s i) (by simp [Along, hs])

instance Always.decidable {P : σ → Prop} [∀ s, Decidable (P s)] :
    (s : σ) → (is : List ι) → Decidable (Always step P s is)
  | s, [] => inferInstanceAs (Decidable (P s))
  | s, i :: is =>
    match hs : step s i with
    | .ok t =>
      have := Always.decidable (P := P) t is
      decidable_of_iff (P s ∧ Always step P t is) (by simp [Always, hs])
    | .error e => decidable_of_iff (P s) (by simp [Always, hs])

theorem Always.head {P : σ → Prop} {s : σ} {is : List ι} (h : Always step P s is) : P s := by
  cases is with
  | nil => exact h
  | cons i is => exact h.1

theorem Always.mono {P Q : σ → Prop} (hPQ : ∀ s, P s → Q s) {s : σ} {is : List ι}
    (h : Always step P s is) : Always step Q s is := by
  induction is generalizing s with
  | nil => exact hPQ s h
  | cons i is ih => exact ⟨hPQ s h.1, fun s' hs' => ih (h.2 s' hs')⟩

theorem Along.and {C D : σ → ι → Prop} {s : σ} {is : List ι} (hC : Along step C s is)
    (hD : Along step D s is) : Along step (fun s i => C s i ∧ D s i) s is := by
  induction is generalizing s with
  | nil => trivial
  | cons i is ih => exact ⟨⟨hC.1, hD.1⟩, fun s' hs' => ih (hC.2 s' hs') (hD.2 s' hs')⟩

theorem Along.of_forall {C : ι → Prop} {is : List ι} (h : ∀ i ∈ is, C i) (s : σ) :
    Along step (fun _ i => C i) s is := by
  induction is generalizing s with
  | nil => trivial
  | cons i is ih =>
    exact ⟨h i List.mem_cons_self, fun s' _ => ih (fun j hj => h j (List.mem_cons_of_mem i hj)) s'⟩

theorem Along.true (s : σ) (is : List ι) : Along step (fun _ _ => True) s is :=
  Along.of_forall (C := fun _ => True) (fun _ _ => trivial) s

theorem exec_append {s t : σ} {is js : List ι} (h : exec step s is = .ok t) :
    exec step s (is ++ js) = exec step t js := by
  induction is generalizing s with
  | nil =>
    obtain rfl : s = t := by simpa [exec] using h
    rfl
  | cons i is ih =>
    cases hs : step s i with
    | error e => simp [exec, hs] at h
    | ok s' =>
      simp only [List.cons_append, exec, hs] at h ⊢
      exact ih h

/-- What holds along a run holds at the step after it. -/
theorem Along.last {C : σ → ι → Prop} {s t : σ} {is : List ι} {i : ι} (h : Along step C s (is ++ [i]))
    (ht : exec step s is = .ok t) : C t i := by
  induction is generalizing s with
  | nil =>
    obtain rfl : s = t := by simpa [exec] using ht
    exact h.1
  | cons j is ih =>
    cases hs : step s j with
    | error e => simp [exec, hs] at ht
    | ok s' => exact ih (h.2 s' hs) (by simpa [exec, hs] using ht)

/-- What holds in every state of a run holds in its last one. -/
theorem Always.exec {P : σ → Prop} {s t : σ} {is : List ι} (h : Always step P s is)
    (ht : exec step s is = .ok t) : P t := by
  induction is generalizing s with
  | nil =>
    obtain rfl : s = t := by simpa [Run.exec] using ht
    exact h
  | cons i is ih =>
    cases hs : step s i with
    | error e => simp [Run.exec, hs] at ht
    | ok s' => exact ih (h.2 s' hs) (by simpa [Run.exec, hs] using ht)

/-- What is seen of the last state of a run. -/
theorem exec_map {β : Type*} {f : σ → β} {b : β} {s : σ} {is : List ι}
    (hb : (exec step s is).map f = .ok b) : ∃ t, exec step s is = .ok t ∧ f t = b := by
  cases ht : exec step s is with
  | error e =>
    rw [ht] at hb
    cases hb
  | ok t =>
    rw [ht] at hb
    exact ⟨t, rfl, Except.ok.inj hb⟩

/-- What is seen of the last state of a run is seen of a state with the property. -/
theorem Always.exec_map {P : σ → Prop} {β : Type*} {f : σ → β} {b : β} {s : σ} {is : List ι}
    (h : Always step P s is) (hb : (Run.exec step s is).map f = .ok b) : ∃ t, P t ∧ f t = b := by
  obtain ⟨t, ht, hf⟩ := Run.exec_map hb
  exact ⟨t, h.exec ht, hf⟩

/-- **Invariant rule.** An invariant that every step meeting `C` keeps holds in every state of a
    run all of whose steps meet `C`. -/
theorem Always.of_along {I : σ → Prop} {C : σ → ι → Prop}
    (hstep : ∀ s i s', I s → C s i → step s i = .ok s' → I s') {s : σ} {is : List ι} (hs : I s)
    (h : Along step C s is) : Always step I s is := by
  induction is generalizing s with
  | nil => exact hs
  | cons i is ih => exact ⟨hs, fun s' hs' => ih (hstep s i s' hs h.1 hs') (h.2 s' hs')⟩

/-- An invariant that every step keeps holds in every state of every run. -/
theorem Always.of_step {I : σ → Prop} (hstep : ∀ s i s', I s → step s i = .ok s' → I s') {s : σ}
    (hs : I s) (is : List ι) : Always step I s is :=
  Always.of_along (C := fun _ _ => True) (fun s i s' h _ h' => hstep s i s' h h') hs (Along.true s is)

/-- An error that no step from a state of the invariant stops with is not the end of a run. -/
theorem exec_ne_error_of_along {I : σ → Prop} {C : σ → ι → Prop} {e : ε}
    (hstep : ∀ s i s', I s → C s i → step s i = .ok s' → I s')
    (hne : ∀ s i, I s → C s i → step s i ≠ .error e) {s : σ} {is : List ι} (hs : I s)
    (h : Along step C s is) : exec step s is ≠ .error e := by
  induction is generalizing s with
  | nil => intro h'; exact absurd h' (by simp [exec])
  | cons i is ih =>
    have hnei := hne s i hs h.1
    unfold exec
    cases hsi : step s i with
    | error e' => rw [hsi] at hnei; exact hnei
    | ok s' => exact ih (hstep s i s' hs h.1 hsi) (h.2 s' hsi)

/-- If no step from a state of the invariant fails, the run does not. -/
theorem exec_ok_of_along {I : σ → Prop} {C : σ → ι → Prop}
    (hstep : ∀ s i, I s → C s i → ∃ s', step s i = .ok s' ∧ I s') {s : σ} {is : List ι} (hs : I s)
    (h : Along step C s is) : ∃ t, exec step s is = .ok t := by
  induction is generalizing s with
  | nil => exact ⟨s, rfl⟩
  | cons i is ih =>
    obtain ⟨s', hs', hI⟩ := hstep s i hs h.1
    unfold exec
    rw [hs']
    exact ih hI (h.2 s' hs')

/-- A step property that follows from the invariant holds at every step of a run. -/
theorem Along.of_inv {I : σ → Prop} {C D : σ → ι → Prop}
    (hstep : ∀ s i s', I s → C s i → step s i = .ok s' → I s')
    (hD : ∀ s i, I s → C s i → D s i) {s : σ} {is : List ι} (hs : I s) (h : Along step C s is) :
    Along step D s is := by
  induction is generalizing s with
  | nil => trivial
  | cons i is ih =>
    exact ⟨hD s i hs h.1, fun s' hs' => ih (hstep s i s' hs h.1 hs') (h.2 s' hs')⟩

/-- **Exact condition.** If, from a state of the invariant `I` and on an input of the domain `D`,
    a step ends in a state with `P` exactly when `C` holds, and then `I` holds again, then `P` holds
    in every state of a run exactly when `C` holds at every step of it. -/
theorem always_iff_along {I P : σ → Prop} {C D : σ → ι → Prop} (hI : ∀ s, I s → P s)
    (hkeep : ∀ s i s', I s → D s i → step s i = .ok s' → C s i → I s')
    (hneed : ∀ s i s', I s → D s i → step s i = .ok s' → P s' → C s i)
    (hstop : ∀ s i e, I s → D s i → step s i = .error e → C s i)
    {s : σ} {is : List ι} (hs : I s) (hD : Along step D s is) :
    Always step P s is ↔ Along step C s is := by
  induction is generalizing s with
  | nil => exact ⟨fun _ => trivial, fun _ => hI s hs⟩
  | cons i is ih =>
    constructor
    · intro h
      have hC : C s i := by
        cases hstep : step s i with
        | error e => exact hstop s i e hs hD.1 hstep
        | ok s' => exact hneed s i s' hs hD.1 hstep (h.2 s' hstep).head
      exact ⟨hC, fun s' hs' => (ih (hkeep s i s' hs hD.1 hs' hC) (hD.2 s' hs')).1 (h.2 s' hs')⟩
    · intro h
      exact ⟨hI s hs, fun s' hs' =>
        (ih (hkeep s i s' hs hD.1 hs' h.1) (hD.2 s' hs')).2 (h.2 s' hs')⟩

/-- **Exact condition of a step property.** If, from a state of the invariant `I` and on an input of
    the domain `D`, a step has `P` exactly when `C` holds, and then `I` holds again, then all the steps
    of a run have `P` exactly when `C` holds at every step of it. -/
theorem along_iff_along {I : σ → Prop} {P C D : σ → ι → Prop}
    (heach : ∀ s i, I s → D s i → (P s i ↔ C s i))
    (hkeep : ∀ s i s', I s → D s i → C s i → step s i = .ok s' → I s') {s : σ} {is : List ι} (hs : I s)
    (hD : Along step D s is) : Along step P s is ↔ Along step C s is := by
  induction is generalizing s with
  | nil => exact Iff.rfl
  | cons i is ih =>
    have hhere := heach s i hs hD.1
    constructor
    · intro h
      have hC := hhere.1 h.1
      exact ⟨hC, fun s' hs' => (ih (hkeep s i s' hs hD.1 hC hs') (hD.2 s' hs')).1 (h.2 s' hs')⟩
    · intro h
      exact ⟨hhere.2 h.1, fun s' hs' =>
        (ih (hkeep s i s' hs hD.1 h.1 hs') (hD.2 s' hs')).2 (h.2 s' hs')⟩

end Run
