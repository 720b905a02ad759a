import Nctuns.Dvb.EvenDispatch
import Nctuns.Lib.Outcome

/-!
# Proofs about slots for queues of one priority

A round lifts every queue from one level to a higher one. A round of more than one slot for each queue
never runs out of slots before all demands have got theirs; a round of single slots can, and then
nothing is left. So the shares lie between two levels next to each other.
-/

namespace Dvb.RcstQueueManager

open MaxMin

variable {l front back : List UInt32} {q m : ℕ} {d min_grant_amount available demand_cnt : UInt32}

/-! ### Levels -/

/-- The share of a demand at a level. -/
def shareAt (q : ℕ) (d : UInt32) : EvenShare := ⟨.ofNat (d.toNat - q), .ofNat (min d.toNat q)⟩

/-- How many demands are not met at a level. -/
def unmet (q : ℕ) (l : List UInt32) : ℕ := l.countP fun d => q < d.toNat

theorem toNat_ofNat_le {n : ℕ} (h : n ≤ d.toNat) : (UInt32.ofNat n).toNat = n :=
  UInt32.toNat_ofNat_of_lt' (Nat.lt_of_le_of_lt h d.toNat_lt)

@[simp] theorem toNat_demand_shareAt : (shareAt q d).demand.toNat = d.toNat - q :=
  toNat_ofNat_le (Nat.sub_le ..)

@[simp] theorem toNat_cnt_shareAt : (shareAt q d).cnt.toNat = min d.toNat q :=
  toNat_ofNat_le (Nat.min_le_left ..)

theorem shareAt_zero (d : UInt32) : shareAt 0 d = ⟨d, 0⟩ := by
  rw [shareAt, Nat.sub_zero, Nat.min_zero, UInt32.ofNat_toNat]
  rfl

theorem shareAt_congr {q' : ℕ} (h : d.toNat ≤ q) (h' : d.toNat ≤ q') : shareAt q d = shareAt q' d := by
  rw [shareAt, shareAt, Nat.sub_eq_zero_of_le h, Nat.sub_eq_zero_of_le h', Nat.min_eq_left h,
    Nat.min_eq_left h']

@[simp] theorem unmet_nil : unmet q [] = 0 := rfl

theorem unmet_cons (d : UInt32) (l : List UInt32) :
    unmet q (d :: l) = unmet q l + if q < d.toNat then 1 else 0 := by
  rw [unmet, List.countP_cons, unmet]
  simp only [decide_eq_true_eq]

theorem unmet_append : unmet q (front ++ back) = unmet q front + unmet q back := List.countP_append

theorem le_of_unmet_eq_zero (h : unmet q l = 0) (hd : d ∈ l) : d.toNat ≤ q := by
  have := List.countP_eq_zero.1 h d hd
  simpa using this

theorem exists_of_unmet_pos (h : 0 < unmet q l) : ∃ d ∈ l, q < d.toNat := by
  obtain ⟨d, hd, hlt⟩ := List.countP_pos_iff.1 h
  exact ⟨d, hd, by simpa using hlt⟩

/-! ### A round -/

theorem toNat_MIN (a b : UInt32) : (MIN a b).toNat = min a.toNat b.toNat := by
  rw [MIN]
  split
  · next h =>
    rw [UInt32.lt_iff_toNat_lt] at h
    omega
  · next h =>
    rw [UInt32.lt_iff_toNat_lt] at h
    omega

/-- A queue takes what it demands, up to `m`. -/
theorem toNat_grant (hm : min_grant_amount.toNat = m) :
    (MIN (shareAt q d).demand min_grant_amount).toNat = min (d.toNat - q) m := by
  rw [toNat_MIN, toNat_demand_shareAt, hm]

/-- That lifts it by `m`. -/
theorem demand_grant (hm : min_grant_amount.toNat = m) :
    (shareAt q d).demand - MIN (shareAt q d).demand min_grant_amount = (shareAt (q + m) d).demand := by
  have hgrant := toNat_grant (q := q) (d := d) hm
  refine UInt32.toNat_inj.1 ?_
  rw [UInt32.toNat_sub_of_le _ _ (by rw [UInt32.le_iff_toNat_le, hgrant, toNat_demand_shareAt]; omega),
    hgrant, toNat_demand_shareAt, toNat_demand_shareAt]
  omega

theorem cnt_grant (hm : min_grant_amount.toNat = m) :
    (shareAt q d).cnt + MIN (shareAt q d).demand min_grant_amount = (shareAt (q + m) d).cnt := by
  have hlt := d.toNat_lt
  refine UInt32.toNat_inj.1 ?_
  rw [UInt32.toNat_add, toNat_grant hm, toNat_cnt_shareAt, toNat_cnt_shareAt,
    Nat.mod_eq_of_lt (by omega)]
  omega

/-- **Step lemma.** A round lifts the queues at the front by `m`; it stops before all of them are lifted
    only if nothing is left. -/
theorem grantEach_spec (hm : min_grant_amount.toNat = m) (hpos : 0 < m) (l : List UInt32)
    (hfits : m = 1 ∨ m * unmet q l ≤ available.toNat) (hcnt : unmet q l ≤ demand_cnt.toNat) :
    ∃ front back available' demand_cnt', l = front ++ back ∧
      grantEach min_grant_amount (l.map (shareAt q)) available demand_cnt =
        (front.map (shareAt (q + m)) ++ back.map (shareAt q), available', demand_cnt') ∧
      available'.toNat + poured UInt32.toNat (q + m) front = available.toNat + poured UInt32.toNat q front ∧
      demand_cnt'.toNat + unmet q front = demand_cnt.toNat + unmet (q + m) front ∧
      (back ≠ [] → available' = 0) ∧ (m ≠ 1 → unmet q back = 0) := by
  induction l generalizing available demand_cnt with
  | nil => exact ⟨[], [], available, demand_cnt, rfl, rfl, rfl, rfl, fun h => absurd rfl h, fun _ => rfl⟩
  | cons d l ih =>
    rw [unmet_cons] at hfits hcnt
    by_cases hav : available > 0
    · have hgrant := toNat_grant (q := q) (d := d) hm
      have hdemand := demand_grant (q := q) (d := d) hm
      have hshare := cnt_grant (q := q) (d := d) hm
      obtain ⟨grant, hgrantdef⟩ : ∃ grant, MIN (shareAt q d).demand min_grant_amount = grant := ⟨_, rfl⟩
      rw [hgrantdef] at hgrant hdemand hshare
      have hav' : 0 < available.toNat := hav
      -- a queue that is not met takes at most its part of what is available
      have hle : grant.toNat ≤ available.toNat := by
        rcases hfits with h1 | hfits
        · omega
        · split at hfits
          · rw [Nat.mul_add, Nat.mul_one] at hfits
            omega
          · omega
      have hsub : (available - grant).toNat = available.toNat - grant.toNat :=
        UInt32.toNat_sub_of_le _ _ hle
      set cnt' := if grant > 0 ∧ (shareAt (q + m) d).demand = 0 then demand_cnt - 1 else demand_cnt
        with hcntdef
      have hcnt' : cnt'.toNat + (if q < d.toNat then 1 else 0) =
          demand_cnt.toNat + if q + m < d.toNat then 1 else 0 := by
        have hiff : (grant > 0 ∧ (shareAt (q + m) d).demand = 0) ↔ q < d.toNat ∧ d.toNat ≤ q + m := by
          rw [← UInt32.toNat_inj, toNat_demand_shareAt, gt_iff_lt, UInt32.lt_iff_toNat_lt, hgrant]
          have hzero : (0 : UInt32).toNat = 0 := rfl
          omega
        rw [hcntdef]
        by_cases hmet : q < d.toNat ∧ d.toNat ≤ q + m
        · rw [if_pos (hiff.2 hmet), if_pos hmet.1, if_neg (Nat.not_lt.2 hmet.2)]
          rw [if_pos hmet.1] at hcnt
          have hone : (1 : UInt32).toNat = 1 := rfl
          rw [UInt32.toNat_sub_of_le _ _ (by rw [UInt32.le_iff_toNat_le]; omega)]
          omega
        · rw [if_neg fun h => hmet (hiff.1 h)]
          split <;> split <;> omega
      obtain ⟨front, back, av, c, rfl, hrest, hav2, hc2, hback, hmet⟩ := @ih (available - grant) cnt'
        (by
          rcases hfits with h1 | hfits
          · exact .inl h1
          · refine .inr ?_
            rw [hsub]
            split at hfits
            · rw [Nat.mul_add, Nat.mul_one] at hfits
              omega
            · rw [Nat.add_zero] at hfits
              omega)
        (by split at hcnt' <;> split at hcnt' <;> split at hcnt <;> omega)
      refine ⟨d :: front, back, av, c, rfl, ?_, ?_, ?_, hback, hmet⟩
      · rw [List.map_cons, grantEach, if_pos hav]
        simp only [hgrantdef, hdemand, hshare]
        rw [← hcntdef, hrest]
        rfl
      · rw [poured_cons, poured_cons]
        omega
      · rw [unmet_cons, unmet_cons]
        omega
    · have hzero : available = 0 := by
        refine UInt32.toNat_inj.1 ?_
        exact Nat.eq_zero_of_not_pos hav
      refine ⟨[], d :: l, available, demand_cnt, rfl, ?_, rfl, rfl, fun _ => hzero, fun h1 => ?_⟩
      · rw [List.map_cons, grantEach, if_neg hav]
        rfl
      · rw [unmet_cons]
        have h0 : available.toNat = 0 := by rw [hzero]; rfl
        rcases hfits with h | hfits
        · exact absurd h h1
        · rw [h0, Nat.le_zero, Nat.mul_eq_zero] at hfits
          omega

/-! ### The loop -/

/-- The shares lie between the levels `q` and `q + 1`, and nothing is left or nothing more is demanded. -/
def Dispatched (l : List UInt32) (total_available : ℕ) (qs : List EvenShare) : Prop :=
  ∃ q front back left, l = front ++ back ∧
    qs = front.map (shareAt (q + 1)) ++ back.map (shareAt q) ∧
    left + (poured UInt32.toNat (q + 1) front + poured UInt32.toNat q back) = total_available ∧
    (left = 0 ∨ unmet q l = 0)

/-- **Run lemma.** The loop ends, and the slots are dispatched. -/
theorem dispatchLoop_spec {n total_available : ℕ} (l : List UInt32) (hn : available.toNat < n)
    (hav : available.toNat + poured UInt32.toNat q l = total_available) (hcnt : demand_cnt.toNat = unmet q l) :
    ∃ qs, dispatchLoop n (l.map (shareAt q)) available demand_cnt = .ok qs ∧
      Dispatched l total_available qs := by
  induction n generalizing q available demand_cnt with
  | zero => omega
  | succ n ih =>
    rw [dispatchLoop]
    by_cases hgo : available > 0 ∧ demand_cnt > 0
    · rw [if_pos hgo]
      have hav0 : 0 < available.toNat := hgo.1
      have hcnt0 : 0 < demand_cnt.toNat := hgo.2
      obtain ⟨amount, hamount⟩ : ∃ amount,
          (if available / demand_cnt = 0 then 1 else available / demand_cnt) = amount := ⟨_, rfl⟩
      have hdiv : (available / demand_cnt).toNat = available.toNat / demand_cnt.toNat :=
        UInt32.toNat_div ..
      have hzero : available / demand_cnt = 0 ↔ available.toNat / demand_cnt.toNat = 0 := by
        rw [← UInt32.toNat_inj, hdiv]
        rfl
      have hpos : 0 < amount.toNat := by
        rw [← hamount]
        split
        · exact Nat.one_pos
        · next h =>
          rw [hdiv]
          exact Nat.pos_of_ne_zero fun h0 => h (hzero.2 h0)
      have hfits : amount.toNat = 1 ∨ amount.toNat * unmet q l ≤ available.toNat := by
        rw [← hamount]
        split
        · exact .inl rfl
        · rw [hdiv, ← hcnt]
          exact .inr (Nat.div_mul_le_self ..)
      obtain ⟨front, back, av, c, hl, hround, hav', hc', hback, hmet⟩ :=
        @grantEach_spec q amount.toNat amount available demand_cnt rfl hpos l hfits (Nat.le_of_eq hcnt.symm)
      simp only [hamount, hround]
      by_cases hall : unmet q back = 0
      · -- the whole list is at the next level
        have hbackmap : back.map (shareAt q) = back.map (shareAt (q + amount.toNat)) := by
          refine List.map_congr_left fun d hd => ?_
          have := le_of_unmet_eq_zero hall hd
          exact shareAt_congr this (by omega)
        have hbackpoured : poured UInt32.toNat q back = poured UInt32.toNat (q + amount.toNat) back := by
          refine congrArg List.sum (List.map_congr_left fun d hd => ?_)
          have := le_of_unmet_eq_zero hall hd
          omega
        have hbackunmet : unmet (q + amount.toNat) back = 0 := by
          refine List.countP_eq_zero.2 fun d hd => ?_
          have := le_of_unmet_eq_zero hall hd
          simp only [decide_eq_true_eq]
          omega
        rw [hbackmap, ← List.map_append, ← hl]
        rw [hl, unmet_append] at hcnt
        rw [hl, poured_append] at hav
        have hlt : poured UInt32.toNat q l < poured UInt32.toNat (q + amount.toNat) l := by
          obtain ⟨d, hd, hlt⟩ := exists_of_unmet_pos (q := q) (l := l) (by rw [hl, unmet_append]; omega)
          exact poured_lt hd hlt (by omega)
        rw [hl, poured_append, poured_append] at hlt
        refine ih (by omega) ?_ ?_
        · rw [hl, poured_append]
          omega
        · rw [hl, unmet_append]
          omega
      · -- a round of single slots that has used up all of them
        have hone : amount.toNat = 1 := by
          by_contra h
          exact hall (hmet h)
        have hne : back ≠ [] := by
          rintro rfl
          exact hall rfl
        have hav0' := hback hne
        cases n with
        | zero => omega
        | succ n =>
          have hstop : ¬ (av > 0 ∧ c > 0) := by
            rw [hav0']
            exact fun h => absurd h.1 (by decide)
          refine ⟨_, by rw [dispatchLoop, if_neg hstop], ?_⟩
          refine ⟨q, front, back, 0, hl, by rw [hone], ?_, .inl rfl⟩
          rw [hone, hav0'] at hav'
          rw [hl, poured_append] at hav
          have h0 : (0 : UInt32).toNat = 0 := rfl
          omega
    · rw [if_neg hgo]
      refine ⟨_, rfl, q, [], l, available.toNat, rfl, rfl, by rw [poured_nil, Nat.zero_add]; exact hav, ?_⟩
      rw [← hcnt]
      by_contra h
      exact hgo ⟨Nat.pos_of_ne_zero fun h0 => h (.inl h0), Nat.pos_of_ne_zero fun h0 => h (.inr h0)⟩

/-! ### The whole dispatch -/

theorem toNat_total (l : List UInt32) (t : UInt32) (h : t.toNat + (l.map UInt32.toNat).sum < 2 ^ 32) :
    (l.foldl (fun total d => if d ≠ 0 then total + d else total) t).toNat =
      t.toNat + (l.map UInt32.toNat).sum := by
  induction l generalizing t with
  | nil => rfl
  | cons d l ih =>
    rw [List.map_cons, List.sum_cons] at h ⊢
    have hadd : (t + d).toNat = t.toNat + d.toNat := by
      rw [UInt32.toNat_add, Nat.mod_eq_of_lt (by omega)]
    rw [List.foldl_cons]
    split
    · rw [ih _ (by omega)]
      omega
    · next h0 =>
      obtain rfl : d = 0 := not_not.1 h0
      have h00 : (0 : UInt32).toNat = 0 := rfl
      rw [ih _ (by omega)]
      omega

theorem unmet_le_sum (l : List UInt32) : unmet 0 l ≤ (l.map UInt32.toNat).sum := by
  induction l with
  | nil => exact Nat.le_refl _
  | cons d l ih =>
    rw [unmet_cons, List.map_cons, List.sum_cons]
    split <;> omega

theorem toNat_demand_cnt (l : List UInt32) (t : UInt32) (h : t.toNat + unmet 0 l < 2 ^ 32) :
    (l.foldl (fun cnt d => if d ≠ 0 then cnt + 1 else cnt) t).toNat = t.toNat + unmet 0 l := by
  induction l generalizing t with
  | nil => rfl
  | cons d l ih =>
    rw [unmet_cons] at h ⊢
    have hadd : t.toNat + 1 < 2 ^ 32 → (t + 1).toNat = t.toNat + 1 := by
      intro hlt
      rw [UInt32.toNat_add]
      exact Nat.mod_eq_of_lt hlt
    have hiff : d ≠ 0 ↔ 0 < d.toNat := by
      rw [Nat.pos_iff_ne_zero, ne_eq, ne_eq, ← UInt32.toNat_inj]
      rfl
    rw [List.foldl_cons]
    by_cases hd : 0 < d.toNat
    · rw [if_pos hd] at h ⊢
      rw [if_pos (hiff.2 hd), ih _ (by rw [hadd (by omega)]; omega), hadd (by omega)]
      omega
    · rw [if_neg hd] at h ⊢
      rw [if_neg fun h0 => hd (hiff.1 h0), ih _ (by omega)]
      omega

/-- Each demand with its share. -/
theorem zip_shares (l : List UInt32) (q : ℕ) :
    l.zip ((l.map (shareAt q)).map EvenShare.cnt) = l.map fun d => (d, (shareAt q d).cnt) := by
  rw [List.map_map]
  exact List.map_prod_left_eq_zip.symm

theorem sum_shares (l : List UInt32) (q : ℕ) :
    (((l.map (shareAt q)).map EvenShare.cnt).map UInt32.toNat).sum = poured UInt32.toNat q l := by
  rw [List.map_map, List.map_map]
  exact congrArg List.sum (List.map_congr_left fun d _ => toNat_cnt_shareAt)

/-- Demands that are met are given what they ask for. -/
theorem poured_of_unmet_eq_zero (h : unmet q l = 0) :
    poured UInt32.toNat q l = (l.map UInt32.toNat).sum :=
  poured_eq_sum fun _ hd => le_of_unmet_eq_zero h hd

theorem Dispatched.sharedEvenly {qs : List EvenShare} (h : Dispatched l available.toNat qs) :
    SharedEvenly l (qs.map EvenShare.cnt) available := by
  obtain ⟨q, front, back, left, rfl, rfl, hleft, hstop⟩ := h
  have hlevelled : Levelled (fun p : UInt32 × UInt32 => p.1.toNat) (fun p => p.2.toNat) q
      ((front ++ back).zip
        ((front.map (shareAt (q + 1)) ++ back.map (shareAt q)).map EvenShare.cnt)) := by
    intro p hp
    rw [List.map_append, List.zip_append (by simp), zip_shares, zip_shares, List.mem_append] at hp
    rcases hp with hp | hp <;> obtain ⟨d, -, rfl⟩ := List.mem_map.1 hp
    · dsimp only
      rw [toNat_cnt_shareAt]
      omega
    · dsimp only
      rw [toNat_cnt_shareAt]
      omega
  have hfront := @poured_le_sum _ UInt32.toNat front (q + 1)
  have hback := @poured_le_sum _ UInt32.toNat back q
  refine ⟨by simp, fun p hp => hlevelled.le_demand hp, ?_, hlevelled.fair⟩
  rw [List.map_append, List.map_append, List.sum_append, sum_shares, sum_shares, List.map_append,
    List.sum_append]
  rcases hstop with rfl | hmet
  · omega
  · rw [unmet_append] at hmet
    have hall : unmet (q + 1) front = 0 := by
      refine List.countP_eq_zero.2 fun d hd => ?_
      have := le_of_unmet_eq_zero (show unmet q front = 0 by omega) hd
      simp only [decide_eq_true_eq]
      omega
    have h1 := poured_of_unmet_eq_zero hall
    have h2 := poured_of_unmet_eq_zero (show unmet q back = 0 by omega)
    omega

/-- The dispatch ends, with shares that are right for the demands. -/
theorem dispatch_evenly_spec (demand : List UInt32) (available : UInt32) (hne : demand ≠ [])
    (hsum : (demand.map UInt32.toNat).sum < 2 ^ 32) :
    Outcome.Ends (fun _ => False) (SharedEvenly demand · available) (_dispatch_evenly demand available) := by
  rw [_dispatch_evenly, if_neg hne]
  have h00 : (0 : UInt32).toNat = 0 := rfl
  by_cases h0 : available = 0
  · subst h0
    have hzip : demand.zip (demand.map fun _ => (0 : UInt32)) = demand.map fun d => (d, 0) :=
      List.map_prod_left_eq_zip.symm
    rw [if_pos rfl]
    refine Outcome.Ends.ok ⟨by simp, fun p hp => ?_, ?_, fun p hp p' hp' _ => ?_⟩
    · rw [hzip] at hp
      obtain ⟨d, -, rfl⟩ := List.mem_map.1 hp
      exact Nat.zero_le _
    · rw [List.map_map, h00, Nat.zero_min]
      exact List.sum_eq_zero fun x hx => by
        obtain ⟨_, -, rfl⟩ := List.mem_map.1 hx
        rfl
    · rw [hzip] at hp'
      obtain ⟨d, -, rfl⟩ := List.mem_map.1 hp'
      exact Nat.zero_le _
  · rw [if_neg h0]
    dsimp only
    have htotal := toNat_total demand 0 (by omega)
    have hcnt := toNat_demand_cnt demand 0 (by have := unmet_le_sum demand; omega)
    by_cases hle : demand.foldl (fun total d => if d ≠ 0 then total + d else total) 0 ≤ available
    · rw [if_pos hle]
      rw [UInt32.le_iff_toNat_le] at hle
      have hzip : demand.zip demand = demand.map fun d => (d, d) := by
        have := @List.map_prod_left_eq_zip _ _ demand id
        rw [List.map_id] at this
        exact this.symm
      refine Outcome.Ends.ok ⟨rfl, fun p hp => ?_, by omega, fun p hp p' hp' hlt => ?_⟩
      · rw [hzip] at hp
        obtain ⟨d, -, rfl⟩ := List.mem_map.1 hp
        exact Nat.le_refl _
      · rw [hzip] at hp
        obtain ⟨d, -, rfl⟩ := List.mem_map.1 hp
        exact absurd hlt (Nat.lt_irrefl _)
    · rw [if_neg hle]
      have hstart : demand.map (fun d => EvenShare.mk d 0) = demand.map (shareAt 0) :=
        List.map_congr_left fun d _ => (shareAt_zero d).symm
      have hav : available.toNat + poured UInt32.toNat 0 demand = available.toNat := by
        rw [poured_zero, Nat.add_zero]
      obtain ⟨qs, hqs, hd⟩ := dispatchLoop_spec demand (Nat.lt_succ_self _) hav
        (hcnt.trans (Nat.zero_add _))
      rw [hstart, hqs]
      exact Outcome.Ends.ok hd.sharedEvenly

/-- Each queue after the grants is the queue before them with its own share granted. -/
def Granted (queues : List RcstQueue) (cnt : List UInt32) (queues' : List RcstQueue) : Prop :=
  List.Forall₂ (fun p queue' => ∃ spent, RcstQueue.Jt.grant_demand p.1 p.2 = .ok (spent, queue'))
    (queues.zip cnt) queues'

/-- The error is one of a queue at its share. -/
def StoppedBy (queues : List RcstQueue) (cnt : List UInt32) (e : ManagerHalt) : Prop :=
  ∃ p ∈ queues.zip cnt, ∃ abort, RcstQueue.Jt.grant_demand p.1 p.2 = .error abort ∧ e = .queue abort

theorem grant_demand_of_jt {queue : RcstQueue} (h : queue._queue_type = .JT) (cnt : UInt32)
    (frame : FrameIdent) : queue.grant_demand false cnt frame = RcstQueue.Jt.grant_demand queue cnt := by
  rw [RcstQueue.grant_demand, h]

/-- What is granted is there: the assertion of the loop never fails. -/
theorem grantShares_spec {frame : FrameIdent} {queues : List RcstQueue} {cnts : List UInt32}
    {remainder : UInt32} (hjt : ∀ queue ∈ queues, queue._queue_type = .JT)
    (hlen : cnts.length = queues.length) (hle : (cnts.map UInt32.toNat).sum ≤ remainder.toNat) :
    Outcome.Ends (StoppedBy queues cnts)
      (fun r => r.1.toNat + (cnts.map UInt32.toNat).sum = remainder.toNat ∧ Granted queues cnts r.2)
      (grantShares frame queues cnts remainder) := by
  induction queues generalizing cnts remainder with
  | nil =>
    obtain rfl := List.eq_nil_of_length_eq_zero hlen
    exact Outcome.Ends.ok ⟨Nat.add_zero _, List.Forall₂.nil⟩
  | cons queue queues ih =>
    cases cnts with
    | nil => cases hlen
    | cons cnt cnts =>
      rw [List.map_cons, List.sum_cons] at hle
      rw [grantShares]
      have hge : remainder ≥ cnt := by
        rw [ge_iff_le, UInt32.le_iff_toNat_le]
        omega
      have hsub : (remainder - cnt).toNat = remainder.toNat - cnt.toNat :=
        UInt32.toNat_sub_of_le _ _ hge
      rw [if_neg (not_not.2 hge), grant_demand_of_jt (hjt queue List.mem_cons_self)]
      cases hgrant : RcstQueue.Jt.grant_demand queue cnt with
      | error e => exact ⟨(queue, cnt), List.mem_cons_self, e, hgrant, rfl⟩
      | ok r =>
        obtain ⟨spent, queue'⟩ := r
        have hrest : (cnts.map UInt32.toNat).sum ≤ (remainder - cnt).toNat := by omega
        have hlater : ∀ e, StoppedBy queues cnts e → StoppedBy (queue :: queues) (cnt :: cnts) e := by
          rintro e ⟨p, hp, hstop⟩
          exact ⟨p, List.mem_cons_of_mem _ hp, hstop⟩
        have hih := ih (fun q hq => hjt q (List.mem_cons_of_mem _ hq)) (Nat.succ.inj hlen) hrest
        refine (hih.mono hlater fun _ h => h).bind fun r hr => ?_
        refine Outcome.Ends.ok ⟨?_, List.Forall₂.cons ⟨spent, hgrant⟩ hr.2⟩
        rw [List.map_cons, List.sum_cons]
        have := hr.1
        dsimp only
        omega

/-- A queue with jitter that holds eight cells, two to a slot. -/
def eightCells : RcstQueue :=
  (RcstQueue.init .JT ⟨2, 1, id, id⟩ 100 0 0 0 0 ⟨0, 0⟩).push 8 true ⟨0, 0⟩

end Dvb.RcstQueueManager
