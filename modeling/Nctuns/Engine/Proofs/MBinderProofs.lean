import Nctuns.Engine.MBinder
import Nctuns.Lib.Run

/-!
# Correctness of the module binders

The queue is always sorted by level, so the packet to swap out is its last one and an arrival goes
before the packets that it outranks. Neither walk needs `mbq_tail`: `enqueue` only tests it for null,
so the packets come out in the right order even while it points at a packet swapped out.
-/

namespace Engine

open PtrChain

variable {τ : Type*} {s s' : MBQueue τ} {pkt p : τ} {l l' hi lo : List τ}

theorem MBQueue.level_congr (h : s'.priority_ = s.priority_) : s'.level = s.level := by
  funext u
  rw [level, level, h]

/-! ## The walks -/

/-- The search of a queue sorted by level ends at its last packet. -/
theorem MBQueue.victimWalk_eq {fuel : Nat} {ptr1 ptr p1 : Option τ} {p0 : τ}
    (h : IsChain s.next_ep ptr (l ++ [p])) (hfuel : l.length + 1 ≤ fuel)
    (hsorted : (p0 :: l ++ [p]).Pairwise fun x y => s.level y ≤ s.level x) :
    s.victimWalk fuel ptr1 ptr p1 p0 = .ok (l.getLast?.or ptr1, p) := by
  induction l generalizing fuel ptr1 ptr p1 p0 with
  | nil =>
    obtain ⟨rfl, hnext⟩ := h
    obtain ⟨fuel, rfl⟩ : ∃ k, fuel = k + 1 := ⟨fuel - 1, by simp at hfuel; omega⟩
    have hle : s.level p ≤ s.level p0 := (List.pairwise_cons.1 hsorted).1 p (by simp)
    have hnull : s.next_ep p = none := hnext
    rw [victimWalk, if_pos hle, hnull]
    cases fuel <;> rfl
  | cons u l ih =>
    obtain ⟨rfl, hnext⟩ := h
    obtain ⟨fuel, rfl⟩ : ∃ k, fuel = k + 1 := ⟨fuel - 1, by simp at hfuel; omega⟩
    obtain ⟨hle, hsorted⟩ := List.pairwise_cons.1 hsorted
    rw [victimWalk, if_pos (hle u (by simp)), ih hnext (by simpa using hfuel) hsorted,
      List.getLast?_cons]
    cases l.getLast? <;> rfl

theorem MBQueue.victimWalk_head (h : IsChain s.next_ep s.mbq_head (l ++ [p]))
    (hlen : s.mbq_len = (l ++ [p]).length)
    (hsorted : (l ++ [p]).Pairwise fun x y => s.level y ≤ s.level x) :
    ∃ x, s.mbq_head = some x ∧
      s.victimWalk s.mbq_len.toNat none (some x) none x = .ok (l.getLast?, p) := by
  have hx : ∃ x, s.mbq_head = some x ∧ ∀ u ∈ l ++ [p], s.level u ≤ s.level x := by
    cases l with
    | nil => exact ⟨p, h.1, by simp⟩
    | cons x l => exact ⟨x, h.1, by simpa using (List.pairwise_cons.1 hsorted).1⟩
  obtain ⟨x, hx, hle⟩ := hx
  rw [hx] at h
  refine ⟨x, hx, ?_⟩
  rw [victimWalk_eq h (by simp at hlen; omega) (List.pairwise_cons.2 ⟨hle, hsorted⟩), Option.or_none]

/-- The search for the place of a packet ends behind the packets that it does not outrank. -/
theorem MBQueue.placeWalk_eq {fuel : Nat} {ptr1 ptr : Option τ}
    (h : IsChain s.next_ep ptr (hi ++ lo)) (hfuel : (hi ++ lo).length ≤ fuel)
    (hhi : ∀ u ∈ hi, s.level pkt ≤ s.level u) (hlo : ∀ u ∈ lo, s.level u < s.level pkt) :
    s.placeWalk pkt fuel ptr1 ptr = .ok (hi.getLast?.or ptr1, lo.head?) := by
  induction hi generalizing fuel ptr1 ptr with
  | nil =>
    cases lo with
    | nil =>
      obtain rfl : ptr = none := h
      cases fuel <;> rfl
    | cons u lo =>
      obtain ⟨rfl, -⟩ := h
      obtain ⟨fuel, rfl⟩ : ∃ k, fuel = k + 1 := ⟨fuel - 1, by simp at hfuel; omega⟩
      have hlt : s.level pkt > s.level u := hlo u (by simp)
      rw [placeWalk, if_pos hlt]
      rfl
  | cons u hi ih =>
    obtain ⟨rfl, hnext⟩ := h
    obtain ⟨fuel, rfl⟩ : ∃ k, fuel = k + 1 := ⟨fuel - 1, by simp at hfuel; omega⟩
    have hle : ¬ s.level pkt > s.level u := not_lt.2 (hhi u (by simp))
    rw [placeWalk, if_neg hle, ih hnext (by simpa using hfuel) (fun w hw => hhi w (by simp [hw])),
      List.getLast?_cons]
    cases hi.getLast? <;> rfl

variable [DecidableEq τ]

/-! ## The parts of `enqueue` -/

theorem MBQueue.insertAt_chain (h : IsChain s.next_ep s.mbq_head (hi ++ lo))
    (hpkt : pkt ∉ hi ++ lo) :
    IsChain (s.insertAt pkt hi.getLast? lo.head?).next_ep (s.insertAt pkt hi.getLast? lo.head?).mbq_head
      (hi ++ pkt :: lo) := by
  rcases List.eq_nil_or_concat hi with rfl | ⟨pre, x, rfl⟩
  · exact h.push hpkt
  · rw [List.concat_eq_append] at h hpkt ⊢
    have hins : IsChain s.next_ep s.mbq_head (pre ++ x :: lo) := by simpa using h
    have hnew := hins.insert_after (t := pkt) (by simpa using hpkt)
    simpa [insertAt, link] using hnew

/-- `insert` puts a packet between the packets of its level or a higher one and the others. The tail
    pointer is written if there are no others. -/
theorem MBQueue.insert_eq (h : IsChain s.next_ep s.mbq_head (hi ++ lo))
    (hlen : s.mbq_len = (hi ++ lo).length) (htail : s.mbq_tail = none → hi ++ lo = [])
    (hpkt : pkt ∉ hi ++ lo) (hnull : s.next_ep pkt = none)
    (hhi : ∀ u ∈ hi, s.level pkt ≤ s.level u) (hlo : ∀ u ∈ lo, s.level u < s.level pkt) :
    ∃ s', s.insert pkt = .ok s' ∧ IsChain s'.next_ep s'.mbq_head (hi ++ pkt :: lo) ∧
      s'.mbq_len = s.mbq_len + 1 ∧ s'.mbq_maxlen = s.mbq_maxlen ∧ s'.priority_ = s.priority_ ∧
      s'.mbq_tail = if lo = [] then some pkt else s.mbq_tail := by
  cases ht : s.mbq_tail with
  | none =>
    obtain ⟨rfl, rfl⟩ := List.append_eq_nil_iff.1 (htail ht)
    exact ⟨{ s with mbq_head := some pkt, mbq_tail := some pkt, mbq_len := s.mbq_len + 1 },
      by simp only [insert, ht], ⟨rfl, hnull⟩, rfl, rfl, rfl, rfl⟩
  | some t =>
    have hwalk : s.placeWalk pkt s.mbq_len.toNat none s.mbq_head = .ok (hi.getLast?, lo.head?) := by
      rw [placeWalk_eq h (by omega) hhi hlo, Option.or_none]
    refine ⟨{ s.insertAt pkt hi.getLast? lo.head? with mbq_len := s.mbq_len + 1 },
      by simp only [insert, ht, hwalk], insertAt_chain h hpkt, rfl, ?_, ?_, ?_⟩
    · cases hi.getLast? <;> rfl
    · cases hi.getLast? <;> rfl
    · cases hi.getLast? <;> cases lo <;> simp [insertAt, link, ht]

/-- `swapOut` takes the last packet out. It writes the tail pointer only for a queue of one packet. -/
theorem MBQueue.swapOut_spec (h : IsChain s.next_ep s.mbq_head (l ++ [p])) :
    IsChain (s.swapOut l.getLast? p).next_ep (s.swapOut l.getLast? p).mbq_head l ∧
      (s.swapOut l.getLast? p).mbq_len = s.mbq_len - 1 ∧
      (s.swapOut l.getLast? p).mbq_maxlen = s.mbq_maxlen ∧
      (s.swapOut l.getLast? p).priority_ = s.priority_ ∧
      (s.swapOut l.getLast? p).mbq_tail =
        (if l = [] ∧ s.mbq_tail = some p then none else s.mbq_tail) ∧
      ∀ u ∉ l ++ [p], (s.swapOut l.getLast? p).next_ep u = s.next_ep u := by
  rcases List.eq_nil_or_concat l with rfl | ⟨pre, x, rfl⟩
  · obtain ⟨hhead, hnull⟩ := h
    have hnull : s.next_ep p = none := hnull
    refine ⟨?_, rfl, rfl, rfl, ?_, fun _ _ => rfl⟩
    · simp [swapOut, hhead, hnull]
    · simp [swapOut, hhead, hnull, eq_comm]
  · rw [List.concat_eq_append] at h ⊢
    have hcut : IsChain s.next_ep s.mbq_head (pre ++ x :: p :: []) := by simpa using h
    have hnew := hcut.remove_after
    refine ⟨by simpa [swapOut, link] using hnew, by simp [swapOut, link], by simp [swapOut, link],
      by simp [swapOut, link], by simp [swapOut, link], fun u hu => ?_⟩
    obtain ⟨hup, hux⟩ : u ≠ p ∧ u ≠ x := by
      constructor <;> (rintro rfl; simp at hu)
    simp [swapOut, link, hup, hux]

/-! ## `enqueue` -/

/-- What holds of the binder's queue between two calls: it links the packets `l`, sorted by level, and
    the tail pointer is null only if there are none. -/
structure MBQueue.Links (s : MBQueue τ) (l : List τ) : Prop where
  chain : IsChain s.next_ep s.mbq_head l
  len : s.mbq_len = l.length
  le : s.mbq_len ≤ s.mbq_maxlen
  tail : s.mbq_tail = none ↔ l = []
  sorted : l.Pairwise fun x y => s.level y ≤ s.level x

omit [DecidableEq τ] in
theorem MBQueue.Links.packets_eq (h : s.Links l) : s.packets = l :=
  h.chain.walk (by have := h.len; omega)

omit [DecidableEq τ] in
theorem MBQueue.Links.lenExact {log : List (BinderReply τ)} (h : s.Links l) : LenExact (s, log) :=
  ⟨⟨l, h.chain, h.len⟩, h.le⟩

omit [DecidableEq τ] in
/-- The place of a packet in a sorted queue. -/
theorem MBQueue.exists_place (s : MBQueue τ) (pkt : τ)
    (h : l.Pairwise fun x y => s.level y ≤ s.level x) :
    ∃ hi lo, l = hi ++ lo ∧ (∀ u ∈ hi, s.level pkt ≤ s.level u) ∧
      ∀ u ∈ lo, s.level u < s.level pkt := by
  induction l with
  | nil => exact ⟨[], [], rfl, by simp, by simp⟩
  | cons x l ih =>
    obtain ⟨hx, hl⟩ := List.pairwise_cons.1 h
    by_cases hle : s.level pkt ≤ s.level x
    · obtain ⟨hi, lo, rfl, hhi, hlo⟩ := ih hl
      exact ⟨x :: hi, lo, rfl, by simpa using ⟨hle, hhi⟩, hlo⟩
    · refine ⟨[], x :: l, rfl, by simp, fun u hu => ?_⟩
      rcases List.mem_cons.1 hu with rfl | hu
      · exact not_le.1 hle
      · exact lt_of_le_of_lt (hx u hu) (not_le.1 hle)

omit [DecidableEq τ] in
/-- A packet at its place keeps the queue sorted. -/
theorem MBQueue.sorted_insert (h : (hi ++ lo).Pairwise fun x y => s.level y ≤ s.level x)
    (hhi : ∀ u ∈ hi, s.level pkt ≤ s.level u) (hlo : ∀ u ∈ lo, s.level u < s.level pkt) :
    (hi ++ pkt :: lo).Pairwise fun x y => s.level y ≤ s.level x := by
  obtain ⟨h₁, h₂, h₃⟩ := List.pairwise_append.1 h
  refine List.pairwise_append.2 ⟨h₁, List.pairwise_cons.2 ⟨fun u hu => (hlo u hu).le, h₂⟩, ?_⟩
  intro u hu w hw
  rcases List.mem_cons.1 hw with rfl | hw
  · exact hhi u hu
  · exact h₃ u hu w hw

/-- The packet `pkt` has joined the packets `l` of the queue `s`, which is `s'` then. -/
structure MBQueue.Joined (s : MBQueue τ) (pkt : τ) (l : List τ) (s' : MBQueue τ)
    (hi lo : List τ) : Prop where
  split : l = hi ++ lo
  before : ∀ u ∈ hi, s.level pkt ≤ s.level u
  behind : ∀ u ∈ lo, s.level u < s.level pkt
  links : s'.Links (hi ++ pkt :: lo)
  tail : s'.mbq_tail = if lo = [] then some pkt else s.mbq_tail

theorem MBQueue.insert_joins (h : IsChain s.next_ep s.mbq_head l) (hlen : s.mbq_len = l.length)
    (hroom : s.mbq_len < s.mbq_maxlen) (htail : s.mbq_tail = none → l = []) (hpkt : pkt ∉ l)
    (hnull : s.next_ep pkt = none) (hsorted : l.Pairwise fun x y => s.level y ≤ s.level x) :
    ∃ s' hi lo, s.insert pkt = .ok s' ∧ s'.mbq_maxlen = s.mbq_maxlen ∧
      s'.priority_ = s.priority_ ∧ s.Joined pkt l s' hi lo := by
  obtain ⟨hi, lo, rfl, hhi, hlo⟩ := s.exists_place pkt hsorted
  obtain ⟨s', hs', hchain, hlen', hmax, hprio, htail'⟩ := insert_eq h hlen htail hpkt hnull hhi hlo
  refine ⟨s', hi, lo, hs', hmax, hprio, rfl, hhi, hlo, ?_, htail'⟩
  have hsame : s'.level = s.level := level_congr hprio
  refine ⟨hchain, ?_, by omega, ?_, ?_⟩
  · rw [hlen', hlen]
    simp
    omega
  · rw [htail']
    refine iff_of_false ?_ (by simp)
    split_ifs with hnil
    · simp
    · intro hnone
      simpa [hnil] using htail hnone
  · rw [hsame]
    exact sorted_insert hsorted hhi hlo

/-- A full queue hands `pkt` back or gives its last packet's place to it. -/
theorem MBQueue.enqueueFull_cases (h : s.Links l) (hl : l ≠ []) (hpkt : pkt ∉ l)
    (hnull : s.next_ep pkt = none) :
    ∃ back s' l' p, s.enqueueFull pkt = .ok (back, s') ∧ s'.mbq_maxlen = s.mbq_maxlen ∧
      s'.priority_ = s.priority_ ∧ l = l' ++ [p] ∧
      ((s.level pkt ≤ s.level p ∧ back = some pkt ∧ s' = s) ∨
        (s.level p < s.level pkt ∧ back = some p ∧ ∃ hi lo, s.Joined pkt l' s' hi lo)) := by
  obtain ⟨l', p, rfl⟩ : ∃ l' p, l = l' ++ [p] :=
    ⟨l.dropLast, l.getLast hl, (List.dropLast_append_getLast hl).symm⟩
  obtain ⟨x, hhead, hwalk⟩ := victimWalk_head h.chain h.len h.sorted
  by_cases hle : s.level pkt ≤ s.level p
  · refine ⟨some pkt, s, l', p, ?_, rfl, rfl, rfl, .inl ⟨hle, rfl, rfl⟩⟩
    simp only [enqueueFull, hhead, hwalk]
    rw [if_pos hle]
  · obtain ⟨hcut, hlen, hmax, hprio, htail, hnext⟩ := swapOut_spec h.chain
    have hlevel : (s.swapOut l'.getLast? p).level = s.level := level_congr hprio
    have hlen' : s.mbq_len = l'.length + 1 := by simpa using h.len
    have hle' := h.le
    have hnone : (s.swapOut l'.getLast? p).mbq_tail = none → l' = [] := by
      intro hnone
      by_contra hne
      rw [htail, if_neg fun hp => hne hp.1] at hnone
      exact hl (h.tail.1 hnone)
    have hsorted : l'.Pairwise fun x y =>
        (s.swapOut l'.getLast? p).level y ≤ (s.swapOut l'.getLast? p).level x := by
      rw [hlevel]
      exact (List.pairwise_append.1 h.sorted).1
    obtain ⟨s', hi, lo, hs', hmax', hprio', hj⟩ := insert_joins hcut (by omega) (by omega) hnone
      (fun hmem => hpkt (by simp [hmem])) ((hnext pkt hpkt).trans hnull) hsorted
    obtain ⟨rfl, hbefore, hbehind, hlinks, htail'⟩ := hj
    refine ⟨some p, s', hi ++ lo, p, ?_, hmax'.trans hmax, hprio'.trans hprio, rfl,
      .inr ⟨not_le.1 hle, rfl, hi, lo, rfl, hlevel ▸ hbefore, hlevel ▸ hbehind, hlinks, ?_⟩⟩
    · simp only [enqueueFull, hhead, hwalk]
      rw [if_neg hle, hs']
      rfl
    · rw [htail', htail]
      by_cases hlo : lo = []
      · rw [if_pos hlo, if_pos hlo]
      · rw [if_neg hlo, if_neg hlo, if_neg fun hp => hlo (List.append_eq_nil_iff.1 hp.1).2]

/-- **The three outcomes of `enqueue`**: the packet joins a queue with room, is handed back by a full
    queue none of whose packets it outranks, or takes the place of the last packet. -/
theorem MBQueue.enqueue_cases (h : s.Links l) (hmax : 1 ≤ s.mbq_maxlen) (hpkt : pkt ∉ l) :
    ∃ back s', s.enqueue pkt = .ok (back, s') ∧ s'.mbq_maxlen = s.mbq_maxlen ∧
      s'.priority_ = s.priority_ ∧
      ((s.mbq_len < s.mbq_maxlen ∧ back = none ∧ ∃ hi lo, s.Joined pkt l s' hi lo) ∨
        ∃ l' p, s.mbq_maxlen ≤ s.mbq_len ∧ l = l' ++ [p] ∧
          ((s.level pkt ≤ s.level p ∧ back = some pkt ∧ s'.Links l ∧ s'.mbq_tail = s.mbq_tail) ∨
            (s.level p < s.level pkt ∧ back = some p ∧ ∃ hi lo, s.Joined pkt l' s' hi lo))) := by
  have hchain : IsChain (s.link pkt none).next_ep s.mbq_head l := h.chain.update hpkt
  have hnull : (s.link pkt none).next_ep pkt = none := Function.update_self ..
  by_cases hfull : s.mbq_len ≥ s.mbq_maxlen
  · have hne : l ≠ [] := by
      rintro rfl
      have hlen := h.len
      simp at hlen
      omega
    let t : MBQueue τ := { s.link pkt none with mbq_drops := s.mbq_drops + 1 }
    have ht : t.Links l := ⟨hchain, h.len, h.le, h.tail, h.sorted⟩
    obtain ⟨back, s', l', p, hs', hmax', hprio, rfl, hcases⟩ := enqueueFull_cases ht hne hpkt hnull
    refine ⟨back, s', by rw [enqueue, if_pos hfull, hs'], hmax', hprio, .inr ⟨l', p, hfull, rfl, ?_⟩⟩
    rcases hcases with ⟨hle, rfl, rfl⟩ | ⟨hlt, rfl, hi, lo, hj⟩
    · exact .inl ⟨hle, rfl, ht, rfl⟩
    · exact .inr ⟨hlt, rfl, hi, lo, hj.split, hj.before, hj.behind, hj.links, hj.tail⟩
  · obtain ⟨s', hi, lo, hs', hmax', hprio, hj⟩ := insert_joins hchain h.len (not_le.1 hfull) h.tail.1
      hpkt hnull h.sorted
    refine ⟨none, s', ?_, hmax', hprio, .inl ⟨not_le.1 hfull, rfl, hi, lo, hj.split, hj.before,
      hj.behind, hj.links, hj.tail⟩⟩
    rw [enqueue, if_neg hfull, hs']
    rfl

/-! ## `serve` -/

/-- **The outcomes of `serve`**: the first packet is passed to the next module, and put back in front
    if it is not taken. -/
theorem MBQueue.serve_cases (h : s.Links l) (taken : Bool) :
    (l = [] ∧ s.serve taken = ((none, -1), s)) ∨
      ∃ m l' s', l = m :: l' ∧ s'.mbq_maxlen = s.mbq_maxlen ∧ s'.priority_ = s.priority_ ∧
        ((taken = true ∧ s.serve taken = ((some m, 1), s') ∧ s'.Links l' ∧
            s'.mbq_tail = if l' = [] then none else s.mbq_tail) ∨
          (taken = false ∧ s.serve taken = ((some m, -1), s') ∧ s'.Links l ∧
            s'.mbq_tail = if l' = [] then some m else s.mbq_tail)) := by
  cases l with
  | nil =>
    have hhead : s.mbq_head = none := h.chain
    exact .inl ⟨rfl, by simp only [serve, dequeue, hhead]⟩
  | cons m l' =>
    right
    have hhead : s.mbq_head = some m := h.chain.1
    have hchain := h.chain
    rw [hhead] at hchain
    have hnil : s.next_ep m = none ↔ l' = [] := by
      rw [hchain.2.head_eq, List.head?_eq_none_iff]
    have hlen : s.mbq_len = l'.length + 1 := by simpa using h.len
    have hle := h.le
    have hne : s.mbq_tail ≠ none := fun hnone => absurd (h.tail.1 hnone) (by simp)
    obtain ⟨hm, hl'⟩ := List.nodup_cons.1 hchain.nodup
    let d : MBQueue τ := { s with
      mbq_head := s.next_ep m
      mbq_tail := if s.next_ep m = none then none else s.mbq_tail
      mbq_len := s.mbq_len - 1 }.link m none
    have hd : s.dequeue = (some m, d) := by
      simp only [dequeue, hhead]
      rfl
    have hdtail : d.mbq_tail = if l' = [] then none else s.mbq_tail := by
      have hiff : (if s.next_ep m = none then none else s.mbq_tail) =
          if l' = [] then none else s.mbq_tail := if_congr hnil rfl rfl
      exact hiff
    have hdlen : d.mbq_len = s.mbq_len - 1 := rfl
    cases taken with
    | true =>
      refine ⟨m, l', d, rfl, rfl, rfl, .inl ⟨rfl, by simp [serve, hd], ?_, hdtail⟩⟩
      refine ⟨hchain.pop, by omega, ?_, ?_, (List.pairwise_cons.1 h.sorted).2⟩
      · have hmax : d.mbq_maxlen = s.mbq_maxlen := rfl
        omega
      · rw [hdtail]
        by_cases hl : l' = [] <;> simp [hl, hne]
    | false =>
      have htail : (d.prepend m).mbq_tail = if l' = [] then some m else s.mbq_tail := by
        rw [prepend, hdtail]
        by_cases hl : l' = [] <;> simp [hl, hne]
      refine ⟨m, l', d.prepend m, rfl, rfl, rfl, .inr ⟨rfl, by simp [serve, hd], ?_, htail⟩⟩
      refine ⟨hchain.pop.push hm, ?_, ?_, ?_, h.sorted⟩
      · have hplen : (d.prepend m).mbq_len = d.mbq_len + 1 := rfl
        rw [hplen, List.length_cons]
        omega
      · have hplen : (d.prepend m).mbq_len = d.mbq_len + 1 := rfl
        have hmax : (d.prepend m).mbq_maxlen = s.mbq_maxlen := rfl
        omega
      · rw [htail]
        by_cases hl : l' = [] <;> simp [hl, hne]

/-! ## Calls -/

theorem MBQueue.Links.setPriority (h : s.Links l) (hpkt : pkt ∉ l) (priority_ : Nat) :
    (s.setPriority pkt priority_).Links l ∧
      ∀ u ∈ l, (s.setPriority pkt priority_).level u = s.level u := by
  have hsame : ∀ u ∈ l, (s.setPriority pkt priority_).level u = s.level u := by
    intro u hu
    simp [level, MBQueue.setPriority, ne_of_mem_of_not_mem hu hpkt]
  refine ⟨⟨h.chain, h.len, h.le, h.tail, ?_⟩, hsame⟩
  refine h.sorted.imp_of_mem fun hx hy hxy => ?_
  rwa [hsame _ hx, hsame _ hy]

@[simp] theorem MBQueue.level_setPriority (priority_ : Nat) :
    (s.setPriority pkt priority_).level pkt = mlevel priority_ := by
  simp [level, setPriority]

omit [DecidableEq τ] in
theorem MBQueue.links_new {qlen : Int} (hmax : 1 ≤ qlen) (priority_ : τ → Nat) :
    (MBQueue.new qlen priority_).Links [] :=
  ⟨rfl, rfl, by simp [new]; omega, by simp [new], List.Pairwise.nil⟩

/-! ## The priority queue -/

/-- The packets of a list with their levels. -/
def MBQueue.entries (s : MBQueue τ) (l : List τ) : List (τ × Nat) := l.map fun p => (p, s.level p)

omit [DecidableEq τ] in
theorem MBQueue.entries_congr (h : ∀ u ∈ l, s'.level u = s.level u) : s'.entries l = s.entries l :=
  List.map_congr_left fun u hu => by rw [h u hu]

omit [DecidableEq τ] in
theorem MBQueue.entries_of_priority (h : s'.priority_ = s.priority_) : s'.entries l = s.entries l :=
  entries_congr fun u _ => congrFun (level_congr h) u

omit [DecidableEq τ] in
theorem MBQueue.entries_nodup (h : l.Nodup) : (s.entries l).Nodup :=
  h.map fun _ _ heq => congrArg Prod.fst heq

/-- The binder after some calls, and the priority queue `q` after the same calls. -/
structure MBQueue.Tracks (qlen : Int) (s : MBQueue τ × List (BinderReply τ))
    (q : List (τ × Nat) × List (BinderReply τ)) (l : List τ) : Prop where
  links : s.1.Links l
  max : s.1.mbq_maxlen = qlen
  sorts : PriorityQueue.Sorts Prod.snd (s.1.entries l) q.1
  replies : s.2 = q.2

omit [DecidableEq τ] in
open PriorityQueue in
/-- A packet that joins the binder's queue joins the priority queue. -/
theorem MBQueue.Joined.sorts {q : List (τ × Nat)} (h : s.Joined pkt l s' hi lo)
    (hprio : s'.priority_ = s.priority_) (hq : Sorts Prod.snd (s.entries l) q) :
    Sorts Prod.snd (s'.entries (hi ++ pkt :: lo)) (q ++ [(pkt, s.level pkt)]) := by
  rw [entries_of_priority hprio]
  rw [h.split, entries, List.map_append] at hq
  rw [entries, List.map_append, List.map_cons]
  refine hq.insert ?_ ?_
  · intro u hu
    obtain ⟨v, hv, rfl⟩ := List.mem_map.1 hu
    exact h.before v hv
  · intro u hu
    obtain ⟨v, hv, rfl⟩ := List.mem_map.1 hu
    exact h.behind v hv

open PriorityQueue in
theorem MBQueue.enqueue_sorts {q : List (τ × Nat)} (h : s.Links l) (hmax : 1 ≤ s.mbq_maxlen)
    (hpkt : pkt ∉ l) (hs : Sorts Prod.snd (s.entries l) q) :
    ∃ s' l', s.enqueue pkt =
        .ok ((put Prod.snd s.mbq_maxlen.toNat q (pkt, s.level pkt)).1.map Prod.fst, s') ∧
      s'.mbq_maxlen = s.mbq_maxlen ∧ s'.Links l' ∧
      Sorts Prod.snd (s'.entries l')
        (put Prod.snd s.mbq_maxlen.toNat q (pkt, s.level pkt)).2 := by
  have hnodup : q.Nodup := hs.perm.nodup_iff.1 (entries_nodup h.chain.nodup)
  have hqlen : s.mbq_len = q.length := by
    rw [← hs.length_eq, entries, List.length_map, h.len]
  obtain ⟨back, s', henq, hmax', hprio, hcases⟩ := enqueue_cases h hmax hpkt
  rcases hcases with ⟨hroom, rfl, hi, lo, hj⟩ | ⟨l', p, hfull, rfl, hcases⟩
  · rw [put, if_pos (by omega)]
    exact ⟨s', _, henq, hmax', hj.links, hj.sorts hprio hs⟩
  · have hs₂ : Sorts Prod.snd (s.entries l' ++ [(p, s.level p)]) q := by
      simpa [entries] using hs
    rw [hs₂.put_full (by omega)]
    rcases hcases with ⟨hle, rfl, hl, -⟩ | ⟨hlt, rfl, hi, lo, hj⟩
    · rw [if_neg (not_lt.2 hle)]
      refine ⟨s', _, henq, hmax', hl, ?_⟩
      have hs₃ : Sorts Prod.snd (s'.entries (l' ++ [p])) q := by rwa [entries_of_priority hprio]
      exact hs₃
    · rw [if_pos hlt]
      exact ⟨s', _, henq, hmax', hj.links, hj.sorts hprio (hs₂.erase_last hnodup)⟩

open PriorityQueue in
/-- One call does the same to the binder and to the priority queue. -/
theorem MBQueue.Tracks.call {qlen : Int} {s : MBQueue τ × List (BinderReply τ)}
    {q : List (τ × Nat) × List (BinderReply τ)} {c : BinderCall τ} (hmax : 1 ≤ qlen)
    (h : Tracks qlen s q l) (hown : Owned s c) :
    ∃ s' l', MBQueue.call s c = .ok s' ∧ Tracks qlen s' (BinderSpec.call qlen.toNat q c) l' := by
  obtain ⟨s, log⟩ := s
  obtain ⟨q, _⟩ := q
  obtain ⟨hl, rfl, hs, rfl⟩ := h
  cases c with
  | enqueue pkt priority_ =>
    have hpkt : pkt ∉ l := by rwa [Owned, hl.packets_eq] at hown
    obtain ⟨ht, hsame⟩ := hl.setPriority hpkt priority_
    have hs' : Sorts Prod.snd ((s.setPriority pkt priority_).entries l) q := by
      rwa [entries_congr hsame]
    obtain ⟨s', l', henq, hmax', hl', hput⟩ := enqueue_sorts ht hmax hpkt hs'
    rw [level_setPriority] at henq hput
    refine ⟨_, l', by simp only [MBQueue.call, henq]; rfl, hl', hmax', hput, rfl⟩
  | serve taken =>
    have hnodup : q.Nodup := hs.perm.nodup_iff.1 (entries_nodup hl.chain.nodup)
    rcases serve_cases hl taken with ⟨rfl, hserve⟩ | ⟨m, l', s', rfl, hmax', hprio, hcases⟩
    · have hspec : BinderSpec.call s.mbq_maxlen.toNat (q, log) (.serve taken) =
          (q, log ++ [.serve none (-1)]) := by
        simp only [BinderSpec.call, hs.take_nil]
      refine ⟨(s, log ++ [.serve none (-1)]), [], ?_, ?_⟩
      · simp only [MBQueue.call, hserve]
      · rw [hspec]
        exact ⟨hl, rfl, hs, rfl⟩
    · have hsplit : Sorts Prod.snd ((m, s.level m) :: s.entries l') q := hs
      obtain ⟨q', htake, hs₂⟩ := hsplit.take_eq hnodup
      rcases hcases with ⟨rfl, hserve, hl', -⟩ | ⟨rfl, hserve, hl', -⟩
      · have hspec : BinderSpec.call s.mbq_maxlen.toNat (q, log) (.serve true) =
            (q', log ++ [.serve (some m) 1]) := by
          simp only [BinderSpec.call, htake, if_true]
        refine ⟨(s', log ++ [.serve (some m) 1]), l', by simp only [MBQueue.call, hserve], ?_⟩
        rw [hspec]
        refine ⟨hl', hmax', ?_, rfl⟩
        rw [entries_of_priority hprio]
        exact hs₂
      · have hspec : BinderSpec.call s.mbq_maxlen.toNat (q, log) (.serve false) =
            (q, log ++ [.serve (some m) (-1)]) := by
          simp [BinderSpec.call, htake]
        refine ⟨(s', log ++ [.serve (some m) (-1)]), m :: l', by simp only [MBQueue.call, hserve], ?_⟩
        rw [hspec]
        refine ⟨hl', hmax', ?_, rfl⟩
        rwa [entries_of_priority hprio]

/-- **Refinement.** Whatever the binder is called for, as long as no packet is passed to `enqueue`
    while it is in the queue, no call fails, the packets passed on and handed back are those of a
    bounded stable priority queue, and the length is exact and bounded. -/
theorem MBQueue.run_refines (qlen : Int) (hmax : 1 ≤ qlen) (priority_ : τ → Nat)
    (calls : List (BinderCall τ)) (hown : Run.Along MBQueue.call Owned (.new qlen priority_, []) calls) :
    (∃ s, Run.exec MBQueue.call (.new qlen priority_, []) calls = .ok s ∧
      s.2 = (calls.foldl (BinderSpec.call qlen.toNat) ([], [])).2) ∧
    Run.Always MBQueue.call LenExact (.new qlen priority_, []) calls := by
  have hstart : Tracks qlen (MBQueue.new qlen priority_, []) ([], []) [] :=
    ⟨links_new hmax priority_, rfl, PriorityQueue.Sorts.nil, rfl⟩
  constructor
  · suffices hrun : ∀ s q l, Tracks qlen s q l → Run.Along MBQueue.call Owned s calls →
        ∃ t, Run.exec MBQueue.call s calls = .ok t ∧
          t.2 = (calls.foldl (BinderSpec.call qlen.toNat) q).2 from hrun _ _ _ hstart hown
    clear hown hstart
    induction calls with
    | nil => exact fun s q l h _ => ⟨s, rfl, h.replies⟩
    | cons c calls ih =>
      intro s q l h hown
      obtain ⟨s', l', hc, h'⟩ := h.call hmax hown.1
      obtain ⟨t, ht, hlog⟩ := ih s' _ l' h' (hown.2 s' hc)
      exact ⟨t, by rw [Run.exec, hc]; exact ht, hlog⟩
  · refine (Run.Always.of_along (I := fun s => ∃ q l, Tracks qlen s q l) ?_ ⟨_, _, hstart⟩ hown).mono
      fun s h => ?_
    · rintro s c s' ⟨q, l, h⟩ hc hs'
      obtain ⟨t, l', ht, h'⟩ := h.call hmax hc
      obtain rfl := Except.ok.inj (ht.symm.trans hs')
      exact ⟨_, l', h'⟩
    · obtain ⟨q, l, h⟩ := h
      exact h.links.lenExact

/-- A full queue of two packets, a third one of a higher level, and the packets taken out. -/
theorem MBQueue.run_refines_displaced :
    (∃ s, Run.exec MBQueue.call (.new 2 (fun _ : Fin 3 => 0), [])
        [.enqueue 0 0x40, .enqueue 1 0, .enqueue 2 0xc1, .serve false, .serve true, .serve true] =
          .ok s ∧
      s.2 = [.enqueue none, .enqueue none, .enqueue (some 1), .serve (some 2) (-1),
        .serve (some 2) 1, .serve (some 0) 1]) ∧
    Run.Always MBQueue.call LenExact (.new 2 (fun _ : Fin 3 => 0), [])
      [.enqueue 0 0x40, .enqueue 1 0, .enqueue 2 0xc1, .serve false, .serve true, .serve true] :=
  run_refines 2 (by decide) _ _ (by decide +kernel)

/-! ## The tail pointer -/

omit [DecidableEq τ] in
theorem MBQueue.Links.tailExact_iff {log : List (BinderReply τ)} (h : s.Links l) :
    TailExact (s, log) ↔ s.mbq_tail = l.getLast? := by
  constructor
  · rintro ⟨l', hl'⟩
    rw [h.chain.unique hl'.chain]
    exact hl'.tail
  · exact fun ht => ⟨l, h.chain, ht⟩

omit [DecidableEq τ] in
/-- A packet that joins a queue whose tail pointer is right leaves it right. -/
theorem MBQueue.Joined.tail_last (h : s.Joined pkt l s' hi lo) (ht : s.mbq_tail = l.getLast?) :
    s'.mbq_tail = (hi ++ pkt :: lo).getLast? := by
  rw [h.tail, ht, h.split]
  rcases List.eq_nil_or_concat lo with rfl | ⟨lo, x, rfl⟩
  · simp
  · simp [List.getLast?_cons]

omit [DecidableEq τ] in
/-- A packet that takes the place of the last packet `p` leaves the tail pointer right exactly if it
    becomes the last one itself; otherwise the pointer stays at `p`. -/
theorem MBQueue.Joined.tail_last_iff (h : s.Joined pkt l s' hi lo) (ht : s.mbq_tail = some p)
    (hp : p ∉ l) : s'.mbq_tail = (hi ++ pkt :: lo).getLast? ↔ ∀ u ∈ l, s.level pkt ≤ s.level u := by
  rw [h.tail, ht, h.split]
  rcases List.eq_nil_or_concat lo with rfl | ⟨lo, x, rfl⟩
  · simpa using h.before
  · rw [List.concat_eq_append]
    have hx : x ≠ p := by
      rintro rfl
      exact hp (h.split ▸ by simp)
    have hlt : s.level x < s.level pkt := h.behind x (by simp)
    refine iff_of_false ?_ fun hle => ?_
    · simp [List.getLast?_cons, hx.symm]
    · exact absurd (hle x (by simp)) (not_le.2 hlt)

/-- From a right tail pointer, a call ends with a right one exactly if no packet overtakes another one
    while it displaces the last. -/
theorem MBQueue.call_tailExact_iff {s : MBQueue τ × List (BinderReply τ)} {c : BinderCall τ}
    (h : s.1.Links l) (ht : s.1.mbq_tail = l.getLast?) (hmax : 1 ≤ s.1.mbq_maxlen) (hown : Owned s c) :
    ∃ s' l', MBQueue.call s c = .ok s' ∧ s'.1.Links l' ∧ s'.1.mbq_maxlen = s.1.mbq_maxlen ∧
      (s'.1.mbq_tail = l'.getLast? ↔ NoOvertaking s c) := by
  obtain ⟨s, log⟩ := s
  cases c with
  | serve taken =>
    rcases serve_cases h taken with ⟨rfl, hserve⟩ | ⟨m, l', s', rfl, hmax', -, hcases⟩
    · exact ⟨(s, log ++ [.serve none (-1)]), [], by simp only [MBQueue.call, hserve], h, rfl,
        iff_of_true ht trivial⟩
    · have ht : s.mbq_tail = (m :: l').getLast? := ht
      rcases hcases with ⟨rfl, hserve, hl', htail⟩ | ⟨rfl, hserve, hl', htail⟩
      · refine ⟨(s', log ++ [.serve (some m) 1]), l', by simp only [MBQueue.call, hserve], hl', hmax',
          iff_of_true ?_ trivial⟩
        rw [htail, ht]
        cases l' <;> simp
      · refine ⟨(s', log ++ [.serve (some m) (-1)]), m :: l', by simp only [MBQueue.call, hserve],
          hl', hmax', iff_of_true ?_ trivial⟩
        rw [htail, ht]
        cases l' <;> simp
  | enqueue pkt priority_ =>
    have hpkt : pkt ∉ l := by rwa [Owned, h.packets_eq] at hown
    obtain ⟨hset, hsame⟩ := h.setPriority hpkt priority_
    have htset : (s.setPriority pkt priority_).mbq_tail = l.getLast? := ht
    obtain ⟨back, s', henq, hmax', hprio, hcases⟩ := enqueue_cases hset hmax hpkt
    have hcall : MBQueue.call (s, log) (.enqueue pkt priority_) = .ok (s', log ++ [.enqueue back]) := by
      simp only [MBQueue.call, henq]
    rw [level_setPriority] at hcases
    rcases hcases with ⟨hroom, -, hi, lo, hj⟩ | ⟨l', p, hfull, rfl, hcases⟩
    · refine ⟨_, _, hcall, hj.links, hmax', iff_of_true (hj.tail_last htset) fun hfull => ?_⟩
      exact absurd hfull (not_le.2 hroom)
    · have hlast : (s, log).1.packets.getLast? = some p := by
        rw [h.packets_eq, List.getLast?_concat]
      have hinit : (s, log).1.packets.dropLast = l' := by rw [h.packets_eq, List.dropLast_concat]
      rcases hcases with ⟨hle, -, hl, htail⟩ | ⟨hlt, -, hi, lo, hj⟩
      · refine ⟨_, _, hcall, hl, hmax', iff_of_true (htail.trans htset) fun _ hp => ?_⟩
        obtain ⟨q, hq, hlt⟩ := hp
        obtain rfl := Option.some.inj (hlast.symm.trans hq)
        rw [hsame _ (by simp)] at hle
        exact absurd hle (not_le.2 hlt)
      · have hp : p ∉ l' := fun hmem =>
          (List.nodup_append.1 h.chain.nodup).2.2 p hmem p (by simp) rfl
        rw [List.getLast?_concat] at htset
        refine ⟨_, _, hcall, hj.links, hmax', (hj.tail_last_iff htset hp).trans ?_⟩
        rw [level_setPriority]
        constructor
        · intro hle _ _ u hu
          rw [hinit] at hu
          rw [← hsame u (by simp [hu])]
          exact hle u hu
        · intro hno u hu
          rw [hsame u (by simp [hu])]
          refine hno hfull ⟨p, hlast, ?_⟩ u (by rwa [hinit])
          rwa [← hsame p (by simp)]

/-- **The tail pointer.** It is right in every state of a run exactly if no packet that displaces the
    last one of a full queue overtakes another one. -/
theorem MBQueue.run_tailExact_iff (qlen : Int) (hmax : 1 ≤ qlen) (priority_ : τ → Nat)
    (calls : List (BinderCall τ))
    (hown : Run.Along MBQueue.call Owned (.new qlen priority_, []) calls) :
    Run.Always MBQueue.call TailExact (.new qlen priority_, []) calls ↔
      Run.Along MBQueue.call NoOvertaking (.new qlen priority_, []) calls := by
  refine Run.always_iff_along (D := Owned)
    (I := fun s => ∃ l, s.1.Links l ∧ s.1.mbq_tail = l.getLast? ∧ s.1.mbq_maxlen = qlen)
    ?_ ?_ ?_ ?_ ⟨[], links_new hmax priority_, rfl, rfl⟩ hown
  · rintro ⟨s, log⟩ ⟨l, hl, ht, -⟩
    exact hl.tailExact_iff.2 ht
  · rintro s c s' ⟨l, hl, ht, rfl⟩ hc hs' hno
    obtain ⟨t, l', hcall, hl', hmax', hiff⟩ := call_tailExact_iff hl ht hmax hc
    obtain rfl := Except.ok.inj (hcall.symm.trans hs')
    exact ⟨l', hl', hiff.2 hno, hmax'⟩
  · rintro s c ⟨s', log⟩ ⟨l, hl, ht, rfl⟩ hc hs' htail
    obtain ⟨t, l', hcall, hl', -, hiff⟩ := call_tailExact_iff hl ht hmax hc
    obtain rfl := Except.ok.inj (hcall.symm.trans hs')
    exact hiff.1 (hl'.tailExact_iff.1 htail)
  · rintro s c e ⟨l, hl, ht, rfl⟩ hc hs'
    obtain ⟨t, l', hcall, -⟩ := call_tailExact_iff hl ht hmax hc
    rw [hcall] at hs'
    cases hs'

/-- A full queue of two packets of one level gives up the last one for a packet of a higher level:
    the tail pointer stays at the packet that was handed back. -/
theorem MBQueue.tail_at_displaced :
    ¬ Run.Always MBQueue.call TailExact (.new 2 (fun _ : Fin 3 => 0), [])
      [.enqueue 0 0, .enqueue 1 0, .enqueue 2 0x40] := by
  intro h
  obtain ⟨⟨s, log⟩, ⟨l, hl⟩, hs⟩ := h.exec_map (f := fun s => (s.2.getLast?, s.1.mbq_tail,
    s.1.mbq_head, s.1.next_ep 2, s.1.next_ep 0))
    (b := (some (.enqueue (some 1)), some 1, some 2, some 0, none)) (by decide +kernel)
  simp only [Prod.mk.injEq] at hs
  obtain ⟨-, ht, hh, h2, h0⟩ := hs
  have hchain : PtrChain.IsChain s.next_ep s.mbq_head [2, 0] := ⟨hh, h2, h0⟩
  have htail := hl.tail
  rw [hl.chain.unique hchain, ht] at htail
  exact absurd htail (by decide)

/-- The same queue, with a packet of the higher level in front: the new packet goes to the end. -/
theorem MBQueue.run_tailExact_iff_at_end :
    Run.Always MBQueue.call TailExact (.new 2 (fun _ : Fin 3 => 0), [])
        [.enqueue 0 0x40, .enqueue 1 0, .enqueue 2 0x40, .serve true] ↔
      Run.Along MBQueue.call NoOvertaking (.new 2 (fun _ : Fin 3 => 0), [])
        [.enqueue 0 0x40, .enqueue 1 0, .enqueue 2 0x40, .serve true] :=
  run_tailExact_iff 2 (by decide) _ _ (by decide +kernel)

end Engine
