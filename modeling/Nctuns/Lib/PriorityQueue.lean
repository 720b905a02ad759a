import Mathlib.Algebra.Order.Ring.Int
import Mathlib.Data.List.Nodup
import Mathlib.Data.List.Perm.Lattice
import Mathlib.Order.Defs.LinearOrder

/-!
# Bounded stable priority queues

A queue holds its entries in their order of arrival. `take` gives out the first entry of the highest
level; a full queue gives up the last entry of the lowest level for an arrival of a higher level and
turns any other arrival away. `Sorts level l q` says that `l` is the queue `q` sorted by level, the
entries of one level in their order of arrival: on `l` both entries stand at an end.
-/

namespace PriorityQueue

variable {α β : Type*} [LinearOrder β] (level : α → β)

/-- The first entry that no entry outranks. -/
def top (q : List α) : Option α :=
  q.find? fun e => q.all fun u => level u ≤ level e

/-- The last entry that outranks no entry. -/
def bottom (q : List α) : Option α :=
  q.reverse.find? fun e => q.all fun u => level e ≤ level u

/-- `l` is `q` by descending level, those of one level in the order of `q`. -/
structure Sorts (l q : List α) : Prop where
  sorted : l.Pairwise fun x y => level y ≤ level x
  stable : ∀ v, l.filter (level · = v) = q.filter (level · = v)

variable [DecidableEq α]

/-- The entry that goes out next, and the queue without it. -/
def take (q : List α) : Option α × List α :=
  match top level q with
  | some t => (some t, q.erase t)
  | none => (none, q)

/-- An arrival at a queue of at most `cap` entries: the entry that finds no room, and the queue. -/
def put (cap : Nat) (q : List α) (e : α) : Option α × List α :=
  if q.length < cap then (none, q ++ [e])
  else
    match bottom level q with
    | some b => if level b < level e then (some b, q.erase b ++ [e]) else (some e, q)
    | none => (some e, q)

namespace Sorts

variable {level} {l q pre post : List α} {t e : α}

omit [DecidableEq α] in
theorem nil : Sorts level [] [] := ⟨List.Pairwise.nil, fun _ => rfl⟩

theorem perm (h : Sorts level l q) : l.Perm q := by
  refine List.perm_iff_count.2 fun a => ?_
  have hcount := congrArg (List.count a) (h.stable (level a))
  rwa [List.count_filter (by simp), List.count_filter (by simp)] at hcount

theorem length_eq (h : Sorts level l q) : l.length = q.length := h.perm.length_eq

omit [DecidableEq α] in
/-- Without the entry `t` of both, when it stands at one place. -/
theorem remove {l₁ l₂ : List α} (h : Sorts level (l₁ ++ t :: l₂) (pre ++ t :: post))
    (hplace : l₁.filter (level · = level t) = pre.filter (level · = level t)) :
    Sorts level (l₁ ++ l₂) (pre ++ post) := by
  refine ⟨h.sorted.sublist (by simp), fun v => ?_⟩
  have hv := h.stable v
  simp only [List.filter_append, List.filter_cons] at hv ⊢
  by_cases ht : level t = v
  · subst ht
    simp only [decide_true, if_true] at hv
    rw [hplace] at hv ⊢
    have htail := List.append_cancel_left hv
    rw [(List.cons.inj htail).2]
  · simpa [ht] using hv

/-- The first entry of the sorted list is the first one of the highest level. -/
theorem split_head (h : Sorts level (t :: l) q) :
    ∃ pre post, q = pre ++ t :: post ∧ (∀ u ∈ pre, level u < level t) ∧
      (∀ u ∈ q, level u ≤ level t) ∧ Sorts level l (pre ++ post) := by
  have hle : ∀ u ∈ q, level u ≤ level t := by
    intro u hu
    rcases List.mem_cons.1 (h.perm.mem_iff.2 hu) with rfl | hu
    · exact le_rfl
    · exact (List.pairwise_cons.1 h.sorted).1 u hu
  have hstable := (h.stable (level t)).symm
  rw [List.filter_cons_of_pos (by simp)] at hstable
  obtain ⟨pre, post, rfl, hpre, -, -⟩ := List.filter_eq_cons_iff.1 hstable
  have hne : ∀ u ∈ pre, level u ≠ level t := by simpa using hpre
  have hnone : pre.filter (level · = level t) = [] := by simpa using hne
  refine ⟨pre, post, rfl, fun u hu => ?_, hle, ?_⟩
  · exact lt_of_le_of_ne (hle u (by simp [hu])) (hne u hu)
  · have hs : Sorts level ([] ++ t :: l) (pre ++ t :: post) := h
    simpa using hs.remove (by rw [hnone]; rfl)

/-- The last entry of the sorted list is the last one of the lowest level. -/
theorem split_last (h : Sorts level (l ++ [t]) q) :
    ∃ pre post, q = pre ++ t :: post ∧ (∀ u ∈ post, level t < level u) ∧
      (∀ u ∈ q, level t ≤ level u) ∧ Sorts level l (pre ++ post) := by
  have hle : ∀ u ∈ q, level t ≤ level u := by
    intro u hu
    rcases List.mem_append.1 (h.perm.mem_iff.2 hu) with hu | hu
    · exact (List.pairwise_append.1 h.sorted).2.2 u hu t (by simp)
    · obtain rfl := List.mem_singleton.1 hu
      exact le_rfl
  have hstable := (h.stable (level t)).symm
  rw [List.filter_append, List.filter_cons_of_pos (by simp), List.filter_nil] at hstable
  obtain ⟨q₁, q₂, rfl, hq₁, hq₂⟩ := List.filter_eq_append_iff.1 hstable
  obtain ⟨mid, post, rfl, hmid, -, hpost⟩ := List.filter_eq_cons_iff.1 hq₂
  have hnone : mid.filter (level · = level t) = [] := by simpa using hmid
  have hne : ∀ u ∈ post, level u ≠ level t := by simpa using hpost
  refine ⟨q₁ ++ mid, post, by simp, fun u hu => ?_, hle, ?_⟩
  · exact lt_of_le_of_ne (hle u (by simp [hu])) (hne u hu).symm
  · have hs : Sorts level (l ++ t :: []) ((q₁ ++ mid) ++ t :: post) := by simpa using h
    simpa using hs.remove (by rw [List.filter_append, hq₁, hnone, List.append_nil])

omit [DecidableEq α] in
/-- An arrival stands behind the entries that it does not outrank. -/
theorem insert {hi lo : List α} (h : Sorts level (hi ++ lo) q) (hhi : ∀ u ∈ hi, level e ≤ level u)
    (hlo : ∀ u ∈ lo, level u < level e) : Sorts level (hi ++ e :: lo) (q ++ [e]) := by
  obtain ⟨hs₁, hs₂, hs⟩ := List.pairwise_append.1 h.sorted
  refine ⟨List.pairwise_append.2 ⟨hs₁, List.pairwise_cons.2 ⟨fun u hu => le_of_lt (hlo u hu), hs₂⟩, ?_⟩,
    fun v => ?_⟩
  · intro u hu w hw
    rcases List.mem_cons.1 hw with rfl | hw
    · exact hhi u hu
    · exact hs u hu w hw
  · have hv := h.stable v
    rw [List.filter_append] at hv
    rw [List.filter_append, List.filter_append, ← hv]
    by_cases he : level e = v
    · have hnone : lo.filter (level · = v) = [] :=
        List.filter_eq_nil_iff.2 fun u hu => by simpa [← he] using ne_of_lt (hlo u hu)
      simp [hnone, he]
    · simp [he]

/-! ### The two entries of the queue -/

theorem top_eq (h : Sorts level (t :: l) q) : top level q = some t := by
  obtain ⟨pre, post, rfl, hpre, hle, -⟩ := h.split_head
  have hnone : pre.find? (fun e => (pre ++ t :: post).all fun u => level u ≤ level e) = none := by
    refine List.find?_eq_none.2 fun u hu hall => ?_
    have hall : level t ≤ level u := by simpa using List.all_eq_true.1 hall t (by simp)
    exact absurd (hpre u hu) (not_lt.2 hall)
  rw [top, List.find?_append, hnone, Option.none_or, List.find?_cons_of_pos]
  exact List.all_eq_true.2 fun u hu => decide_eq_true (hle u hu)

theorem bottom_eq (h : Sorts level (l ++ [t]) q) : bottom level q = some t := by
  obtain ⟨pre, post, rfl, hpost, hle, -⟩ := h.split_last
  have hnone :
      post.reverse.find? (fun e => (pre ++ t :: post).all fun u => level e ≤ level u) = none := by
    refine List.find?_eq_none.2 fun u hu hall => ?_
    have hall : level u ≤ level t := by simpa using List.all_eq_true.1 hall t (by simp)
    exact absurd (hpost u (List.mem_reverse.1 hu)) (not_lt.2 hall)
  rw [bottom, List.reverse_append, List.reverse_cons, List.append_assoc, List.find?_append, hnone,
    Option.none_or, List.singleton_append, List.find?_cons_of_pos]
  exact List.all_eq_true.2 fun u hu => decide_eq_true (hle u hu)

theorem take_eq (h : Sorts level (t :: l) q) (hq : q.Nodup) :
    ∃ q', take level q = (some t, q') ∧ Sorts level l q' := by
  refine ⟨q.erase t, by rw [take, h.top_eq], ?_⟩
  obtain ⟨pre, post, rfl, -, -, hs⟩ := h.split_head
  rwa [List.erase_append_right _ fun ht => (List.nodup_append.1 hq).2.2 t ht t (by simp) rfl,
    List.erase_cons_head]

theorem erase_last (h : Sorts level (l ++ [t]) q) (hq : q.Nodup) : Sorts level l (q.erase t) := by
  obtain ⟨pre, post, rfl, -, -, hs⟩ := h.split_last
  rwa [List.erase_append_right _ fun ht => (List.nodup_append.1 hq).2.2 t ht t (by simp) rfl,
    List.erase_cons_head]

omit [DecidableEq α] in
theorem eq_nil (h : Sorts level [] q) : q = [] := by
  by_contra hne
  obtain ⟨u, q, rfl⟩ := List.exists_cons_of_ne_nil hne
  have hu := h.stable (level u)
  simp at hu

theorem put_full {cap : Nat} (h : Sorts level (l ++ [t]) q) (hcap : cap ≤ q.length) :
    put level cap q e =
      if level t < level e then (some t, q.erase t ++ [e]) else (some e, q) := by
  have hfull : ¬ q.length < cap := by omega
  rw [put, if_neg hfull, h.bottom_eq]

theorem take_nil (h : Sorts level [] q) : take level q = (none, q) := by
  rw [h.eq_nil]
  rfl

end Sorts

end PriorityQueue
