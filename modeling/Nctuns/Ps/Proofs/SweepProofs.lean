import Nctuns.Ps.Sweep
import Nctuns.Ps.Proofs.DrrProofs

/-!
# Sweeps and freed queues

The loop goes on from the node that it has just freed, so a sweep uses no freed node exactly if it
frees none. The list itself is right after it unless two queues next to each other expire behind one
that stays.
-/

namespace Ps

open PtrChain Outcome

namespace Drr

variable {d d' : Drr} {l : List Nat} {k n : Nat} {prev p : Option Nat} {log : List Access}

theorem round_stays (h : d.expires k = false) :
    d.round prev k = .ok (d.setTbl k (tick (d.tbl k))) := by
  have htimer : ¬ (tick (d.tbl k)).Timer ≥ 5 := of_decide_eq_false h
  simp only [round, setTbl_self, if_neg htimer]

theorem sweep_succ (n : Nat) (prev : Option Nat) (k : Nat) (d : Drr) :
    sweep (n + 1) prev (some k) d = d.round prev k >>= fun d => sweep n (some k) (d.Next k) d := by
  simp only [sweep, round]
  split <;> rfl

/-- The log is the loop with nothing changed. -/
theorem sweep_eq_sweepLog (n : Nat) (prev p : Option Nat) (d : Drr) :
    sweep n prev p d = Prod.fst <$> sweepLog n prev p d := by
  induction n generalizing prev p d with
  | zero => cases p <;> rfl
  | succ n ih =>
    cases p with
    | none => rfl
    | some k =>
      rw [sweep_succ, sweepLog]
      cases d.round prev k with
      | error x => rfl
      | ok d₁ =>
        rw [bind_ok, bind_ok, ih]
        cases sweepLog n (some k) (d₁.Next k) d₁ <;> rfl

theorem Listed.length_le (h : d.Listed l) : l.length ≤ d.allocated := by
  have hsub : l ⊆ List.range d.allocated := fun k hk => List.mem_range.2 (h.allocated k hk)
  simpa using (h.list.chain.nodup.subperm hsub).length_le

/-- A round over a queue that stays. -/
theorem roundLog_stays (h : d.expires k = false) : d.roundLog prev k = [.use k, .use k] := by
  have htimer : ¬ (tick (d.tbl k)).Timer ≥ 5 := of_decide_eq_false h
  rw [roundLog, if_neg htimer]
  rfl

/-- A round that frees its node uses it afterwards. -/
theorem free_use_roundLog (h : d.expires k = true) :
    [Access.free k, Access.use k].Sublist (d.roundLog prev k) := by
  have htimer : (tick (d.tbl k)).Timer ≥ 5 := of_decide_eq_true h
  have hfree : [Access.free k].Sublist (d.unlinkLog prev k) := by
    refine List.singleton_sublist.2 ?_
    unfold unlinkLog
    split <;> simp
  rw [roundLog, if_pos htimer]
  exact (hfree.cons _).append (List.Sublist.refl [Access.use k])

/-- The first round of a sweep that ends. -/
theorem of_sweepLog_eq_ok (h : sweepLog (n + 1) prev (some k) d = .ok (d', log)) :
    ∃ rest d₁, log = d.roundLog prev k ++ rest ∧ d.round prev k = .ok d₁ ∧
      sweepLog n (some k) (d₁.Next k) d₁ = .ok (d', rest) := by
  rw [sweepLog] at h
  obtain ⟨d₁, hd₁, h⟩ := of_bind_eq_ok h
  obtain ⟨⟨d₂, rest⟩, hrest, h⟩ := of_bind_eq_ok h
  cases h
  exact ⟨rest, d₁, rfl, hd₁, hrest⟩

/-- A sweep that comes to a queue that expires uses a freed one. -/
theorem uses_freed {pre post : List Nat} (hchain : IsChain d.Next p (pre ++ k :: post))
    (hpre : ∀ j ∈ pre, d.expires j = false) (hk : d.expires k = true)
    (h : sweepLog n prev p d = .ok (d', log)) : [Access.free k, Access.use k].Sublist log := by
  induction pre generalizing d n prev p log with
  | nil =>
    obtain ⟨rfl, -⟩ := hchain
    cases n with
    | zero => cases h
    | succ n =>
      obtain ⟨rest, d₁, rfl, -, -⟩ := of_sweepLog_eq_ok h
      exact (free_use_roundLog hk).trans (List.sublist_append_left _ _)
  | cons j pre ih =>
    obtain ⟨rfl, hrest⟩ := hchain
    cases n with
    | zero => cases h
    | succ n =>
      obtain ⟨rest, d₁, rfl, hd₁, hgo⟩ := of_sweepLog_eq_ok h
      have hnd : j ∉ pre ++ k :: post := (List.nodup_cons.1 (IsChain.nodup ⟨rfl, hrest⟩)).1
      rw [round_stays (hpre j List.mem_cons_self)] at hd₁
      cases hd₁
      have hother : ∀ i ∈ pre ++ k :: post, (d.setTbl j (tick (d.tbl j))).expires i = d.expires i :=
        fun i hi => by rw [expires, setTbl_of_ne (ne_of_mem_of_not_mem hi hnd), expires]
      have hgo' := @ih (d.setTbl j (tick (d.tbl j))) n (some j) (d.Next j) rest hrest
      refine (hgo' (fun i hi => ?_) ?_ hgo).trans (List.sublist_append_right _ _)
      · rw [hother i (List.mem_append_left _ hi)]
        exact hpre i (List.mem_cons_of_mem j hi)
      · rw [hother k (by simp)]
        exact hk

/-- A sweep over queues that all stay frees nothing. -/
theorem frees_nothing (hchain : IsChain d.Next p l) (hl : ∀ j ∈ l, d.expires j = false)
    (h : sweepLog n prev p d = .ok (d', log)) : ∀ j, Access.free j ∉ log := by
  induction l generalizing d n prev p log with
  | nil =>
    obtain rfl : p = none := hchain
    cases n <;> cases h <;> exact fun j => List.not_mem_nil
  | cons k l ih =>
    obtain ⟨rfl, hrest⟩ := hchain
    cases n with
    | zero => cases h
    | succ n =>
      obtain ⟨rest, d₁, rfl, hd₁, hgo⟩ := of_sweepLog_eq_ok h
      have hstay := hl k List.mem_cons_self
      have hnd : k ∉ l := (List.nodup_cons.1 (IsChain.nodup ⟨rfl, hrest⟩)).1
      rw [round_stays hstay] at hd₁
      cases hd₁
      intro j hj
      rw [roundLog_stays hstay] at hj
      have hgo' := @ih (d.setTbl k (tick (d.tbl k))) n (some k) (d.Next k) rest hrest
      refine hgo' (fun i hi => ?_) hgo j (by simpa using hj)
      rw [expires, setTbl_of_ne (ne_of_mem_of_not_mem hi hnd)]
      exact hl i (List.mem_cons_of_mem k hi)

/-- The list after a sweep, unless two queues in a row expire behind one that stays. -/
theorem Listed.sweep (h : d.Listed l)
    (hspaced : (l.dropWhile d.expires).IsChain fun a b =>
      ¬ (d.expires a = true ∧ d.expires b = true)) :
    ∃ d' log, sweepLog d.allocated none d.drrTableAll.First d = .ok (d', log) ∧
      d'.Listed (l.filter fun k => !d.expires k) := by
  obtain ⟨tbl, Next, all, hsweep, hlist, hcount, -⟩ := @sweep_spec d d.expires [] l none d.allocated
    h.list h.count h.length_le (fun _ _ => rfl) (by rw [Spaced, if_pos rfl]; exact hspaced)
    fun hne => absurd rfl hne
  rw [← h.list.head_eq, sweep_eq_sweepLog] at hsweep
  obtain ⟨⟨d', log⟩, hlog, rfl⟩ := of_map_eq_ok hsweep
  exact ⟨_, log, hlog, hlist, hcount, fun k hk => h.allocated k (List.mem_filter.1 hk).1⟩

/-- A sweep does what it is for exactly if no queue expires. -/
theorem swept_iff (h : d.Listed l) : d.Swept l ↔ ∀ k ∈ l, d.expires k = false := by
  constructor
  · rintro ⟨d', log, hlog, -, hfree⟩
    by_contra hexp
    push Not at hexp
    obtain ⟨j, hj, hne⟩ := hexp
    obtain ⟨k, hk⟩ := Option.ne_none_iff_exists'.1
      (mt List.find?_eq_none.1 fun hall => hall j hj (by simpa using hne) : l.find? d.expires ≠ none)
    obtain ⟨hexp, pre, post, rfl, hpre⟩ := List.find?_eq_some_iff_append.1 hk
    refine hfree k (uses_freed h.list.chain (fun i hi => ?_) hexp hlog)
    simpa using hpre i hi
  · intro hstay
    have hall : l.dropWhile d.expires = l := by
      cases l with
      | nil => rfl
      | cons k l =>
        rw [List.dropWhile_cons_of_neg]
        simp [hstay k List.mem_cons_self]
    obtain ⟨d', log, hlog, hlisted⟩ := h.sweep (by
      rw [hall]
      refine List.Pairwise.isChain (List.pairwise_of_forall_mem_list fun a ha b _ => ?_)
      simp [hstay a ha])
    refine ⟨d', log, hlog, hlisted, fun k hsub => ?_⟩
    exact frees_nothing h.list.chain hstay hlog k (hsub.subset List.mem_cons_self)

/-- Three empty queues in the list. -/
def threeQueues (Timer : Nat → Int) : Drr :=
  { Drr.init emptyTbl with
    tbl := fun k => { emptyTbl with Timer := Timer k }
    Next := fun k => if k < 2 then some (k + 1) else none
    allocated := 3
    drrTableAll := ⟨3, some 0, some 2⟩ }

theorem threeQueues_listed (Timer : Nat → Int) : (threeQueues Timer).Listed [0, 1, 2] := by
  refine ⟨⟨⟨rfl, rfl, rfl, rfl⟩, rfl⟩, rfl, fun k hk => ?_⟩
  show k < 3
  simp at hk
  omega

/-- Three queues that have just become empty. -/
theorem swept_iff_fresh : (threeQueues fun _ => 0).Swept [0, 1, 2] :=
  (swept_iff (threeQueues_listed fun _ => 0)).2 (by decide)

/-- Of three queues the last two expire, and the last one stays in the list. -/
theorem sweep_keeps_freed :
    ¬ (threeQueues fun k => if k = 0 then 0 else 4).Swept [0, 1, 2] := by
  rintro ⟨d', log, hlog, hlisted, -⟩
  have hlast : (sweepLog 3 none (some 0) (threeQueues fun k => if k = 0 then 0 else 4)).map
      (fun r => (r.1.drrTableAll.First, r.1.Next 0)) = .ok (some 0, some 2) := by decide +kernel
  have hlog' : sweepLog 3 none (some 0) (threeQueues fun k => if k = 0 then 0 else 4) =
      .ok (d', log) := hlog
  rw [hlog'] at hlast
  have hkept : [0, 1, 2].filter (fun k =>
      !(threeQueues fun k => if k = 0 then 0 else 4).expires k) = [0] := by decide
  have hchain := hlisted.list.chain
  rw [hkept] at hchain
  have hnone : d'.Next 0 = none := hchain.2
  have hsome : d'.Next 0 = some 2 := (Prod.mk.inj (Except.ok.inj hlast)).2
  rw [hnone] at hsome
  cases hsome

end Drr

end Ps
