import Mathlib.Data.List.Basic

/-!
# Results of programs that can stop

`Ends E P r` says that a computation `r` has a value with `P` or stops with an error in `E`. The
rules follow the shape of the program: a bind, a guard, a loop over a list, a loop with a bound on
its rounds.
-/

namespace Outcome

universe u

variable {α β σ : Type u} {ε : Type*} {E : ε → Prop} {P : α → Prop} {Q : β → Prop}

@[simp] theorem bind_ok (a : α) (f : α → Except ε β) : (.ok a >>= f) = f a := rfl

@[simp] theorem bind_error (e : ε) (f : α → Except ε β) : (.error e >>= f) = .error e := rfl

/-- A result of two steps comes from a result of the first. -/
theorem of_bind_eq_ok {r : Except ε α} {f : α → Except ε β} {b : β} (h : (r >>= f) = .ok b) :
    ∃ a, r = .ok a ∧ f a = .ok b := by
  cases r with
  | error e => cases h
  | ok a => exact ⟨a, rfl, h⟩

/-- A result that is mapped comes from a result. -/
theorem of_map_eq_ok {f : α → β} {r : Except ε α} {b : β} (h : f <$> r = .ok b) :
    ∃ a, r = .ok a ∧ f a = b := by
  cases r with
  | error e => cases h
  | ok a => exact ⟨a, rfl, Except.ok.inj h⟩

/-- A result has the property, and an error is one of those that may happen. -/
def Ends (E : ε → Prop) (P : α → Prop) : Except ε α → Prop
  | .ok a => P a
  | .error e => E e

theorem Ends.ok {a : α} (h : P a) : Ends E P (.ok a) := h

theorem Ends.error {e : ε} (h : E e) : Ends E P (.error e : Except ε α) := h

theorem Ends.mono {F : ε → Prop} {R : α → Prop} {r : Except ε α} (h : Ends E P r)
    (hE : ∀ e, E e → F e) (hP : ∀ a, P a → R a) : Ends F R r := by
  cases r with
  | ok a => exact hP a h
  | error e => exact hE e h

theorem Ends.cases {r : Except ε α} (h : Ends E P r) :
    (∃ a, r = .ok a ∧ P a) ∨ ∃ e, r = .error e ∧ E e := by
  cases r with
  | ok a => exact .inl ⟨a, rfl, h⟩
  | error e => exact .inr ⟨e, rfl, h⟩

theorem Ends.bind {r : Except ε α} {f : α → Except ε β} (h : Ends E P r)
    (hf : ∀ a, P a → Ends E Q (f a)) : Ends E Q (r >>= f) := by
  cases r with
  | ok a => exact hf a h
  | error e => exact h

theorem Ends.guard {c : Prop} [Decidable c] {e : ε} {r : Except ε α} (he : c → E e)
    (h : ¬ c → Ends E P r) : Ends E P (if c then .error e else r) := by
  split
  · exact he ‹_›
  · exact h ‹_›

/-- A loop over a list keeps an invariant that each of its rounds keeps. -/
theorem Ends.foldlM {I : σ → Prop} {f : σ → α → Except ε σ} {l : List α} {s : σ}
    (hf : ∀ a ∈ l, ∀ s, I s → Ends E I (f s a)) (hs : I s) : Ends E I (l.foldlM f s) := by
  induction l generalizing s with
  | nil => exact hs
  | cons a l ih =>
    rw [List.foldlM_cons]
    exact (hf a List.mem_cons_self s hs).bind fun s' hs' =>
      ih (fun b hb => hf b (List.mem_cons_of_mem _ hb)) hs'

/-- `while` with a bound on its rounds: `body` also says whether there is another one, and `stuck`
    is the error of a loop that does not end in time. -/
def loop (stuck : ε) (body : σ → Except ε (Bool × σ)) : Nat → σ → Except ε σ
  | 0, _ => .error stuck
  | n + 1, s =>
    match body s with
    | .error e => .error e
    | .ok (true, s') => loop stuck body n s'
    | .ok (false, s') => .ok s'

/-- **Loop rule.** A round keeps the invariant `I`, and ends the loop with `J` or, where the loop may
    not run out of rounds, makes the measure smaller. -/
theorem Ends.loop {I J : σ → Prop} {stuck : ε} {body : σ → Except ε (Bool × σ)} (μ : σ → Nat)
    (hbody : ∀ s, I s → Ends E (fun r =>
      if r.1 then I r.2 ∧ (¬ E stuck → μ r.2 < μ s) else J r.2) (body s))
    {n : Nat} {s : σ} (hs : I s) (hn : ¬ E stuck → μ s < n) :
    Ends E J (loop stuck body n s) := by
  induction n generalizing s with
  | zero => exact not_not.1 fun h => absurd (hn h) (Nat.not_lt_zero _)
  | succ n ih =>
    unfold Outcome.loop
    have h := hbody s hs
    obtain ⟨⟨b, s'⟩, hr, h'⟩ | ⟨e, hr, h'⟩ := h.cases
    · rw [hr]
      cases b with
      | true =>
        exact ih h'.1 fun hE => Nat.lt_of_lt_of_le (h'.2 hE) (Nat.le_of_lt_succ (hn hE))
      | false => exact h'
    · rw [hr]
      exact h'

/-- A loop over a list, with an invariant about the elements that it has gone through. -/
theorem Ends.foldlM_prefix {I : List α → σ → Prop} {f : σ → α → Except ε σ} {l : List α} {s : σ}
    (hf : ∀ front a back, l = front ++ a :: back → ∀ s, I front s →
      Ends E (I (front ++ [a])) (f s a)) (hs : I [] s) : Ends E (I l) (l.foldlM f s) := by
  suffices h : ∀ back front s, l = front ++ back → I front s → Ends E (I l) (back.foldlM f s) from
    h l [] s rfl hs
  intro back
  induction back with
  | nil =>
    intro front s hl h
    rw [List.append_nil] at hl
    exact hl ▸ h
  | cons a back ih =>
    intro front s hl h
    rw [List.foldlM_cons]
    exact (hf front a back hl s h).bind fun s' hs' => ih (front ++ [a]) s' (by simp [hl]) hs'

end Outcome
