import Mathlib.Data.Fintype.Card
import Mathlib.Data.List.Nodup
import Mathlib.Logic.Function.Basic

/-!
# Singly linked lists

A list of nodes linked by a map `next`, `none` being the null pointer. `IsChain next p l` says that
following `next` from `p` visits exactly the nodes `l` and ends. A chain is determined by its start,
so it has no cycle, and writing the link of a node outside it does not change it.
-/

namespace PtrChain

variable {κ : Type*} {next : κ → Option κ} {p : Option κ} {l pre post : List κ} {t x : κ}

/-- Following `next` from `p` visits the nodes `l` and then ends. -/
def IsChain (next : κ → Option κ) : Option κ → List κ → Prop
  | p, [] => p = none
  | p, t :: l => p = some t ∧ IsChain next (next t) l

@[simp] theorem isChain_nil : IsChain next p [] ↔ p = none := Iff.rfl

@[simp] theorem isChain_cons : IsChain next p (t :: l) ↔ p = some t ∧ IsChain next (next t) l :=
  Iff.rfl

theorem IsChain.eq_nil (h : IsChain next none l) : l = [] := by
  cases l with
  | nil => rfl
  | cons t l => exact absurd h.1 (by simp)

theorem IsChain.eq_cons (h : IsChain next (some t) l) :
    ∃ l', l = t :: l' ∧ IsChain next (next t) l' := by
  cases l with
  | nil => exact absurd h (by simp)
  | cons u l =>
    obtain ⟨hu, h⟩ := h
    obtain rfl := Option.some.inj hu
    exact ⟨l, rfl, h⟩

theorem IsChain.head_eq (h : IsChain next p l) : p = l.head? := by
  cases l with
  | nil => exact h
  | cons t l => exact h.1

/-- A chain is determined by its start. -/
theorem IsChain.unique {l' : List κ} (h : IsChain next p l) (h' : IsChain next p l') : l = l' := by
  induction l generalizing p l' with
  | nil =>
    obtain rfl : p = none := h
    exact h'.eq_nil.symm
  | cons t l ih =>
    obtain ⟨rfl, h⟩ := h
    obtain ⟨k, rfl, hk⟩ := h'.eq_cons
    rw [ih h hk]

theorem IsChain.drop_append (h : IsChain next p (pre ++ post)) : ∃ q, IsChain next q post := by
  induction pre generalizing p with
  | nil => exact ⟨p, h⟩
  | cons t pre ih => exact ih h.2

/-- What follows a node of a chain is the chain of its link. -/
theorem IsChain.after (h : IsChain next p (pre ++ t :: post)) : IsChain next (next t) post := by
  obtain ⟨_, -, hq⟩ := h.drop_append
  exact hq

/-- A chain has no cycle. -/
theorem IsChain.nodup (h : IsChain next p l) : l.Nodup := by
  induction l generalizing p with
  | nil => exact List.nodup_nil
  | cons t l ih =>
    refine List.nodup_cons.2 ⟨fun hmem => ?_, ih h.2⟩
    obtain ⟨a, b, rfl⟩ := List.append_of_mem hmem
    have hlen := congrArg List.length (h.2.unique h.2.after)
    simp at hlen
    omega

theorem not_isChain_of_self_loop (h : next t = some t) : ¬ IsChain next (some t) l := by
  intro hl
  obtain ⟨l', rfl, hl'⟩ := hl.eq_cons
  rw [h] at hl'
  exact absurd (congrArg List.length (hl'.unique hl)) (by simp)

theorem IsChain.length_le_card [Fintype κ] (h : IsChain next p l) : l.length ≤ Fintype.card κ :=
  h.nodup.length_le_card

/-- A chain depends on the links of its nodes only. -/
theorem IsChain.congr {next' : κ → Option κ} (h : IsChain next p l)
    (hn : ∀ k ∈ l, next' k = next k) : IsChain next' p l := by
  induction l generalizing p with
  | nil => exact h
  | cons t l ih =>
    refine ⟨h.1, ?_⟩
    rw [hn t List.mem_cons_self]
    exact ih h.2 fun k hk => hn k (List.mem_cons_of_mem _ hk)

variable [DecidableEq κ]

/-- Writing the link of a node outside a chain. -/
theorem IsChain.update {q : Option κ} (h : IsChain next p l) (ht : t ∉ l) :
    IsChain (Function.update next t q) p l :=
  h.congr fun _ hk => Function.update_of_ne (ne_of_mem_of_not_mem hk ht) _ _

/-- Linking a node of a chain to another chain that it is not on. -/
theorem IsChain.relink {q : Option κ} {post' : List κ} (h : IsChain next p (pre ++ x :: post))
    (hq : IsChain (Function.update next x q) q post') :
    IsChain (Function.update next x q) p (pre ++ x :: post') := by
  have hx : x ∉ pre := fun hmem => (List.nodup_append.1 h.nodup).2.2 x hmem x (by simp) rfl
  induction pre generalizing p with
  | nil => exact ⟨h.1, by rwa [Function.update_self]⟩
  | cons u pre ih =>
    obtain ⟨hu, hx⟩ := List.ne_and_not_mem_of_not_mem_cons hx
    refine ⟨h.1, ?_⟩
    rw [Function.update_of_ne hu.symm]
    exact ih h.2 hx

/-- A new node in front of a chain. -/
theorem IsChain.push (h : IsChain next p l) (ht : t ∉ l) :
    IsChain (Function.update next t p) (some t) (t :: l) :=
  ⟨rfl, by rw [Function.update_self]; exact h.update ht⟩

/-- A new node behind the node `x` of a chain. -/
theorem IsChain.insert_after (h : IsChain next p (pre ++ x :: post)) (ht : t ∉ pre ++ x :: post) :
    IsChain (Function.update (Function.update next t (next x)) x (some t)) p
      (pre ++ x :: t :: post) := by
  have htx : t ≠ x := by rintro rfl; simp at ht
  have hx : x ∉ post := (List.nodup_cons.1 (List.nodup_append.1 h.nodup).2.1).1
  refine (h.update ht).relink ⟨rfl, ?_⟩
  rw [Function.update_of_ne htx, Function.update_self]
  exact (h.after.update (by simp at ht; exact ht.2.2)).update hx

/-- A new node behind the last one, when its own link is null already. -/
theorem IsChain.snoc (h : IsChain next p (pre ++ [x])) (ht : t ∉ pre ++ [x]) (hnull : next t = none) :
    IsChain (Function.update next x (some t)) p (pre ++ [x, t]) := by
  have hx : next x = none := h.after
  have hins := h.insert_after ht
  rwa [hx, ← hnull, Function.update_eq_self] at hins

/-- The first node taken off a chain, its link reset. -/
theorem IsChain.pop (h : IsChain next (some t) (t :: l)) :
    IsChain (Function.update next t none) (next t) l :=
  h.2.update (List.nodup_cons.1 h.nodup).1

/-- The node behind `x` taken out of a chain. -/
theorem IsChain.skip_after (h : IsChain next p (pre ++ x :: t :: post)) :
    IsChain (Function.update next x (next t)) p (pre ++ x :: post) := by
  have hx : x ∉ post := fun hmem =>
    (List.nodup_cons.1 (List.nodup_append.1 h.nodup).2.1).1 (List.mem_cons_of_mem _ hmem)
  have hpost : IsChain next (next t) post := h.after.2
  exact h.relink (hpost.update hx)

/-- The node behind `x` taken out of a chain, its link reset. -/
theorem IsChain.remove_after (h : IsChain next p (pre ++ x :: t :: post)) :
    IsChain (Function.update (Function.update next x (next t)) t none) p (pre ++ x :: post) := by
  have ht : t ∉ pre ++ x :: post := by
    have hmid : (pre ++ [x] ++ t :: post).Nodup := by simpa using h.nodup
    simpa using (List.nodup_cons.1 (List.nodup_middle.1 hmid)).1
  exact h.skip_after.update ht

/-- The nodes behind `x` cut off. -/
theorem IsChain.truncate (h : IsChain next p (pre ++ x :: post)) :
    IsChain (Function.update next x none) p (pre ++ [x]) := by
  have hnull : IsChain (Function.update next x none) none [] := rfl
  exact h.relink hnull

/-! ### A pointer to the last node -/

/-- The list `l` from `head`, with a pointer `tail` to its last node. -/
structure IsList (next : κ → Option κ) (head tail : Option κ) (l : List κ) : Prop where
  chain : IsChain next head l
  tail : tail = l.getLast?

namespace IsList

variable {head tail : Option κ}

omit [DecidableEq κ] in
theorem head_eq (h : IsList next head tail l) : head = l.head? := h.chain.head_eq

omit [DecidableEq κ] in
theorem congr {next' : κ → Option κ} (h : IsList next head tail l)
    (hn : ∀ k ∈ l, next' k = next k) : IsList next' head tail l :=
  ⟨h.chain.congr hn, h.tail⟩

/-- A new node `t` behind the last one. -/
theorem snoc (h : IsList next head (some x) l) (ht : t ∉ l) (hnull : next t = none) :
    IsList (Function.update next x (some t)) head (some t) (l ++ [t]) := by
  obtain ⟨pre, rfl⟩ := List.getLast?_eq_some_iff.1 h.tail.symm
  have hchain := h.chain.snoc ht hnull
  exact ⟨by simpa using hchain, by simp⟩

omit [DecidableEq κ] in
theorem behind (h : IsList next head tail (t :: l)) (hl : l ≠ []) : IsList next (next t) tail l :=
  ⟨h.chain.2, by rw [h.tail, List.getLast?_cons_of_ne_nil hl]⟩

theorem pop (h : IsList next head tail (t :: l)) (hl : l ≠ []) :
    IsList (Function.update next t none) (next t) tail l := by
  obtain ⟨rfl, -⟩ := h.chain
  exact ⟨h.chain.pop, (h.behind hl).tail⟩

/-- A node taken out, the last one or not. -/
theorem skip_last (h : IsList next head tail (pre ++ [x, t])) :
    IsList (Function.update next x (next t)) head (some x) (pre ++ [x]) :=
  ⟨h.chain.skip_after, by simp⟩

theorem skip_after (h : IsList next head tail (pre ++ x :: t :: post)) (hpost : post ≠ []) :
    IsList (Function.update next x (next t)) head tail (pre ++ x :: post) := by
  refine ⟨h.chain.skip_after, ?_⟩
  obtain ⟨last, hlast⟩ := Option.ne_none_iff_exists'.1 (mt List.getLast?_eq_none_iff.1 hpost)
  rw [h.tail]
  simp [List.getLast?_append, List.getLast?_cons, hlast]

/-- The last node taken off. -/
theorem dropLast (h : IsList next head tail (pre ++ [x, t])) :
    IsList (Function.update next x none) head (some x) (pre ++ [x]) :=
  ⟨h.chain.truncate, by simp⟩

/-- A node in the middle taken out. -/
theorem remove_after (h : IsList next head tail (pre ++ x :: t :: post)) (hpost : post ≠ []) :
    IsList (Function.update (Function.update next x (next t)) t none) head tail
      (pre ++ x :: post) :=
  ⟨h.chain.remove_after, (h.skip_after hpost).tail⟩

end IsList

/-! ### Search -/

omit [DecidableEq κ] in
/-- The nodes on the way from a pointer, at most `n` of them. -/
def walk (next : κ → Option κ) : Nat → Option κ → List κ
  | 0, _ => []
  | _, none => []
  | n + 1, some t => t :: walk next n (next t)

omit [DecidableEq κ] in
theorem IsChain.walk {n : Nat} (h : IsChain next p l) (hn : l.length ≤ n) :
    PtrChain.walk next n p = l := by
  induction l generalizing p n with
  | nil =>
    obtain rfl : p = none := h
    cases n <;> rfl
  | cons t l ih =>
    obtain ⟨rfl, h⟩ := h
    obtain ⟨n, rfl⟩ : ∃ k, n = k + 1 := ⟨n - 1, by simp at hn; omega⟩
    rw [PtrChain.walk, ih h (by simpa using hn)]

omit [DecidableEq κ] in
/-- The first node with `f` on the way from a pointer, and the node before it, which is `last` for
    the node that the pointer points to. `none` is a walk of more than `n` nodes. -/
def find (next : κ → Option κ) (f : κ → Bool) : Nat → Option κ → Option κ →
    Option (Option (Option κ × κ))
  | _, _, none => some none
  | 0, _, some _ => none
  | n + 1, last, some t =>
    if f t then some (some (last, t)) else find next f n (some t) (next t)

omit [DecidableEq κ] in
/-- A search along a chain ends at the first node with `f` or, if there is none, at the end. -/
theorem IsChain.find (f : κ → Bool) {n : Nat} (last : Option κ) (h : IsChain next p l)
    (hn : l.length ≤ n) :
    (PtrChain.find next f n last p = some none ∧ ∀ t ∈ l, f t = false) ∨
      ∃ pre t post, l = pre ++ t :: post ∧ (∀ u ∈ pre, f u = false) ∧ f t = true ∧
        PtrChain.find next f n last p = some (some (pre.getLast?.or last, t)) := by
  induction l generalizing p n last with
  | nil =>
    obtain rfl : p = none := h
    exact .inl ⟨by simp [PtrChain.find], by simp⟩
  | cons t l ih =>
    obtain ⟨rfl, h⟩ := h
    obtain ⟨n, rfl⟩ : ∃ k, n = k + 1 := ⟨n - 1, by simp at hn; omega⟩
    unfold PtrChain.find
    by_cases ht : f t = true
    · exact .inr ⟨[], t, l, rfl, by simp, ht, by simp [ht]⟩
    · rw [if_neg ht]
      have hn : l.length ≤ n := by simpa using hn
      rcases @ih _ n (some t) h hn with ⟨hf, hl⟩ | h
      · exact .inl ⟨hf, by simpa [ht] using hl⟩
      · obtain ⟨pre, u, post, rfl, hpre, hu, hf⟩ := h
        refine .inr ⟨t :: pre, u, post, rfl, by simpa [ht] using hpre, hu, ?_⟩
        rw [hf, List.getLast?_cons]
        cases pre.getLast? <;> rfl

end PtrChain
