import Mathlib.Logic.Function.Basic
import Mathlib.Logic.Relation
import Mathlib.Order.Defs.Unbundled

/-!
# Next hops to a destination

Each node has at most one route to a destination: the neighbour that is the next hop, and a key, of
which `better` tells the better one. `held` are the keys that a node has ever had. When a node only
takes keys that are better than all it has held, and worse than one that its next hop has held, the next
hops never form a cycle.
-/

namespace NextHops

open Relation

variable {N κ : Type*} {better : κ → κ → Prop} {dest : N}
  {route : N → Option (N × κ)} {held : N → κ → Prop}

/-- The node `n` sends to `m`. -/
def Hop (route : N → Option (N × κ)) (n m : N) : Prop := ∃ k, route n = some (m, k)

/-- A key is the best one that the node has held, and the next hop has held a better one. -/
structure Improving (better : κ → κ → Prop) (dest : N) (route : N → Option (N × κ))
    (held : N → κ → Prop) : Prop where
  atDest : route dest = none
  best : ∀ n m k, route n = some (m, k) → ∀ h, held n h → h = k ∨ better k h
  hop : ∀ n m k, route n = some (m, k) → m = dest ∨ ∃ h, held m h ∧ better h k

namespace Improving

theorem congr (h : Improving better dest route held) {route' : N → Option (N × κ)}
    {held' : N → κ → Prop} (hroute : ∀ n, route' n = route n) (hheld : ∀ n k, held' n k ↔ held n k) :
    Improving better dest route' held' := by
  obtain rfl : route' = route := funext hroute
  obtain rfl : held' = held := funext fun n => funext fun k => propext (hheld n k)
  exact h

section Update

/-- Some nodes lose their routes. -/
theorem lose (h : Improving better dest route held) {route' : N → Option (N × κ)}
    (hlose : ∀ n, route' n = route n ∨ route' n = none) : Improving better dest route' held := by
  have hkeep : ∀ {n m k}, route' n = some (m, k) → route n = some (m, k) := by
    intro n m k hn
    rcases hlose n with hsame | hnone
    · rwa [← hsame]
    · rw [hnone] at hn
      cases hn
  refine ⟨?_, fun n m k hn => h.best n m k (hkeep hn), fun n m k hn => h.hop n m k (hkeep hn)⟩
  rcases hlose dest with hsame | hnone
  · rw [hsame, h.atDest]
  · exact hnone

variable [DecidableEq N]

/-- A node takes a route. -/
theorem take (h : Improving better dest route held) {n m : N} {k : κ} (hn : n ≠ dest)
    (hbest : ∀ j, held n j → better k j) (hhop : m = dest ∨ ∃ j, held m j ∧ better j k) :
    Improving better dest (Function.update route n (some (m, k)))
      fun i j => held i j ∨ (i = n ∧ j = k) := by
  refine ⟨?_, ?_, ?_⟩
  · rw [Function.update_of_ne hn.symm]
    exact h.atDest
  · intro i l j hi p hp
    by_cases hin : i = n
    · subst hin
      rw [Function.update_self] at hi
      obtain ⟨-, rfl⟩ := Prod.mk.inj (Option.some.inj hi)
      rcases hp with hp | ⟨-, rfl⟩
      · exact Or.inr (hbest p hp)
      · exact Or.inl rfl
    · rw [Function.update_of_ne hin] at hi
      rcases hp with hp | ⟨rfl, -⟩
      · exact h.best i l j hi p hp
      · exact absurd rfl hin
  · intro i l j hi
    by_cases hin : i = n
    · subst hin
      rw [Function.update_self] at hi
      obtain ⟨rfl, rfl⟩ := Prod.mk.inj (Option.some.inj hi)
      exact hhop.imp id fun ⟨p, hp, hbetter⟩ => ⟨p, Or.inl hp, hbetter⟩
    · rw [Function.update_of_ne hin] at hi
      exact (h.hop i l j hi).imp id fun ⟨p, hp, hbetter⟩ => ⟨p, Or.inl hp, hbetter⟩

end Update

variable [IsStrictOrder κ better]

/-- Along two hops the key gets better. -/
theorem better_of_hops (h : Improving better dest route held) {n m l : N} {k k' : κ}
    (hn : route n = some (m, k)) (hm : route m = some (l, k')) : better k' k := by
  rcases h.hop n m k hn with rfl | ⟨best, hbest, hbetter⟩
  · rw [h.atDest] at hm
    cases hm
  · rcases h.best m l k' hm best hbest with rfl | hk'
    · exact hbetter
    · exact trans_of better hk' hbetter

theorem acyclic (h : Improving better dest route held) (n : N) : ¬ TransGen (Hop route) n n := by
  intro hcycle
  have hwalk : ∀ m, TransGen (Hop route) n m → ∀ k, route n = some k → ∀ k', route m = some k' →
      better k'.2 k.2 := by
    intro m hm
    induction hm with
    | single hhop =>
      rintro k hk ⟨l, k'⟩ hk'
      obtain ⟨j, hj⟩ := hhop
      rw [hk] at hj
      obtain rfl := Option.some.inj hj
      exact h.better_of_hops hk hk'
    | tail _ hhop ih =>
      rintro k hk ⟨l, k'⟩ hk'
      obtain ⟨j, hj⟩ := hhop
      exact trans_of better (h.better_of_hops hj hk') (ih k hk _ hj)
  obtain ⟨m, ⟨k, hk⟩, -⟩ := TransGen.head'_iff.1 hcycle
  exact irrefl_of better k (hwalk n hcycle (m, k) hk (m, k) hk)

end Improving

end NextHops
