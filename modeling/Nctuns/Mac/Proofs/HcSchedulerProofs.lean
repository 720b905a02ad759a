import Nctuns.Mac.HcScheduler
import Nctuns.Lib.Outcome

/-!
# Proofs about HCCA admission

Every call of `reg_TSPEC` either refuses the stream before it does anything or goes through `admission`. What
the admission test says is read off in natural numbers.
-/

namespace Hcca

open QosScheduler_HC

variable {e : mac802_11e} {s s' s₁ : QosScheduler_HC} {mac : EtherAddr} {tspec : TSPEC} {proto : pro_}
  {unset unset' : dir_} {l : List tspec_desc} {si : UInt16} {newdesc : tspec_desc} {result : Int}

/-! ## The admission test -/

/-- The 16-bit sum is the sum modulo `2 ^ 16`. -/
theorem toNat_sum (e : mac802_11e) (l : List tspec_desc) (sum : UInt16) :
    (l.foldl (fun sum p => sum + p.txop + e.pifs) sum).toNat =
      (sum.toNat + (l.map fun p => p.txop.toNat + e.pifs.toNat).sum) % 2 ^ 16 := by
  induction l generalizing sum with
  | nil =>
    have := sum.toNat_lt
    rw [List.foldl_nil, List.map_nil, List.sum_nil, Nat.add_zero, Nat.mod_eq_of_lt this]
  | cons p l ih =>
    rw [List.foldl_cons, ih, List.map_cons, List.sum_cons, UInt16.toNat_add, UInt16.toNat_add]
    omega

/-- What the test of the schedule compares. -/
theorem feasible_iff (e : mac802_11e) (si : UInt16) (l : List tspec_desc) :
    feasible e si l = true ↔
      (l.map fun p => p.txop.toNat + e.pifs.toNat).sum % 2 ^ 16 ≤ si.toNat * 1000 := by
  have hsi := si.toNat_lt
  have hlimit : (si.toUInt32 * 1000).toNat = si.toNat * 1000 := by
    rw [UInt32.toNat_mul, UInt16.toNat_toUInt32]
    exact Nat.mod_eq_of_lt (by simp; omega)
  have hsum : (txop_sum e l).toUInt32.toNat =
      (l.map fun p => p.txop.toNat + e.pifs.toNat).sum % 2 ^ 16 := by
    rw [UInt16.toNat_toUInt32, txop_sum, toNat_sum]
    simp
  unfold feasible
  rw [decide_eq_true_eq, UInt32.le_iff_toNat_le, hlimit, hsum]

/-- The least of the maximum service intervals, cut to 16 bits, is at most each of them. -/
theorem minSI_le (h : ∀ p ∈ l, p.max_SI ≠ 0) : ∀ p ∈ l, (minSI l).toNat ≤ p.max_SI.toNat := by
  -- an interval of zero is one that was cut, so that no smaller one has been seen
  suffices hfold : ∀ (done l : List tspec_desc) (si : UInt16), (∀ p ∈ l, p.max_SI ≠ 0) →
      (∀ p ∈ done, si.toNat ≤ p.max_SI.toNat ∧ (si = 0 → 2 ^ 16 ≤ p.max_SI.toNat)) →
      ∀ p ∈ done ++ l, (l.foldl (fun si p => if si = 0 ∨ p.max_SI < si.toUInt32 then p.max_SI.toUInt16 else si)
        si).toNat ≤ p.max_SI.toNat from
    hfold [] l 0 h fun p hp => absurd hp List.not_mem_nil
  intro done l
  induction l generalizing done with
  | nil =>
    intro si _ hdone p hp
    rw [List.append_nil] at hp
    exact (hdone p hp).1
  | cons q l ih =>
    intro si hl hdone
    have hq : q.max_SI.toNat ≠ 0 := fun h0 => hl q List.mem_cons_self (UInt32.toNat_inj.1 h0)
    have hcut : q.max_SI.toUInt16.toNat = q.max_SI.toNat % 2 ^ 16 := UInt32.toNat_toUInt16 _
    have hsi := si.toNat_lt
    rw [List.foldl_cons, ← List.singleton_append, ← List.append_assoc]
    refine ih (done ++ [q]) _ (fun p hp => hl p (List.mem_cons_of_mem _ hp)) fun p hp => ?_
    by_cases htake : si = 0 ∨ q.max_SI < si.toUInt32
    · rw [if_pos htake]
      have hzero : q.max_SI.toUInt16 = 0 → q.max_SI.toNat % 2 ^ 16 = 0 := by
        intro h0
        rw [← hcut, h0]
        rfl
      rcases List.mem_append.1 hp with hold | hnew
      · obtain ⟨hle, hbig⟩ := hdone p hold
        rcases htake with h0 | hlt
        · have := hbig h0
          exact ⟨by omega, fun _ => this⟩
        · have hlt' : q.max_SI.toNat < si.toNat := by
            rw [← UInt16.toNat_toUInt32]
            exact UInt32.lt_iff_toNat_lt.1 hlt
          refine ⟨by omega, fun h0 => ?_⟩
          have := hzero h0
          omega
      · obtain rfl := List.mem_singleton.1 hnew
        refine ⟨by omega, fun h0 => ?_⟩
        have := hzero h0
        omega
    · rw [if_neg htake]
      rw [not_or] at htake
      refine ⟨?_, fun h0 => absurd h0 htake.1⟩
      rcases List.mem_append.1 hp with hold | hnew
      · exact (hdone p hold).1
      · obtain rfl := List.mem_singleton.1 hnew
        have hge : ¬ p.max_SI.toNat < si.toNat := fun hlt => htake.2 (by
          rw [UInt32.lt_iff_toNat_lt, UInt16.toNat_toUInt32]
          exact hlt)
        omega

/-! ## What a call does -/

/-- The state but for the places of the queues. -/
structure SameStreams (s s₁ : QosScheduler_HC) : Prop where
  head_desc : s₁.head_desc = s.head_desc
  tsNum : s₁.tsNum = s.tsNum
  interval : s₁.Service_Interval = s.Service_Interval
  allocs : s₁.allocs = s.allocs

theorem SameStreams.refl (s : QosScheduler_HC) : SameStreams s s := ⟨rfl, rfl, rfl, rfl⟩

/-- The index of a station leaves the streams as they are. -/
theorem getIndex_same {index : ℕ} (h : s.getIndex mac = some (s₁, index)) :
    SameStreams s s₁ ∧ s₁.ts_ = s.ts_ ∧ s₁.max_qsta = s.max_qsta ∧
      ∀ t : QosScheduler_HC, t.srcmac = s₁.srcmac → t.getIndex mac = some (t, index) := by
  unfold getIndex at h
  by_cases hmem : mac ∈ s.srcmac
  · rw [if_pos hmem] at h
    obtain ⟨rfl, rfl⟩ := Prod.ext_iff.1 (Option.some.inj h)
    refine ⟨.refl s, rfl, rfl, fun t ht => ?_⟩
    unfold getIndex
    rw [ht, if_pos hmem]
  · rw [if_neg hmem] at h
    by_cases hroom : s.srcmac.length < MAX_NNUM
    · rw [if_pos hroom] at h
      obtain ⟨rfl, rfl⟩ := Prod.ext_iff.1 (Option.some.inj h)
      refine ⟨⟨rfl, rfl, rfl, rfl⟩, rfl, rfl, fun t ht => ?_⟩
      unfold getIndex
      rw [ht, if_pos (List.mem_append_right _ (List.mem_singleton.2 rfl)), List.idxOf_append_of_notMem hmem,
        List.idxOf_cons_self, Nat.add_zero]
    · rw [if_neg hroom] at h
      cases h

/-- Where the queue of a downlink stream is put. -/
theorem addQueue_cases (s : QosScheduler_HC) (mac : EtherAddr) (tsid : BitVec 4) :
    (s.getIndex mac = none ∧ s.addQueue mac tsid = .error .assert) ∨
    ∃ s₀ index, s.getIndex mac = some (s₀, index) ∧
      ((tsid.toNat < TSID_INDEX ∧ s.addQueue mac tsid = .error .bounds) ∨
       (TSID_INDEX ≤ tsid.toNat ∧ s.Established index tsid ∧ s.addQueue mac tsid = .ok (s₀, false)) ∨
       (TSID_INDEX ≤ tsid.toNat ∧ ¬ s.Established index tsid ∧ ∃ s₁ ts, s.addQueue mac tsid = .ok (s₁, true) ∧
         SameStreams s s₁ ∧ s₁.srcmac = s₀.srcmac ∧ (∀ j, ts j = s.queue index j) ∧
         s₁.ts_ = Function.update s.ts_ index
           (some (Function.update ts (tsid.toNat - TSID_INDEX) (some []))))) := by
  unfold addQueue
  cases hget : s.getIndex mac with
  | none => exact .inl ⟨rfl, rfl⟩
  | some found =>
    obtain ⟨s₀, index⟩ := found
    obtain ⟨hsame, hts, hmax, -⟩ := getIndex_same hget
    refine .inr ⟨s₀, index, rfl, ?_⟩
    by_cases hlow : tsid.toNat < TSID_INDEX
    · exact .inl ⟨hlow, by simp only [if_pos hlow]⟩
    · have hhigh := Nat.not_lt.1 hlow
      simp only [if_neg hlow]
      have hqueue (j : ℕ) : s.queue index j = (s₀.ts_ index).bind fun ts => ts j := by rw [hts]; rfl
      cases harr : s₀.ts_ index with
      | none =>
        refine .inr (.inr ⟨hhigh, ?_, _, fun _ => none, rfl, ⟨hsame.1, hsame.2, hsame.3, hsame.4⟩, rfl, ?_, ?_⟩)
        · rintro ⟨-, hsome⟩
          rw [hqueue, harr] at hsome
          cases hsome
        · intro j
          rw [hqueue, harr]
          rfl
        · rw [← hts]
      | some ts =>
        have hts' (j : ℕ) : ts j = s.queue index j := by
          rw [hqueue, harr]
          rfl
        have hest : s.Established index tsid ↔
            (index : Int) ≤ s₀.max_qsta ∧ (ts (tsid.toNat - TSID_INDEX)).isSome := by
          unfold Established
          rw [hmax, hts']
        by_cases h : s.Established index tsid
        · refine .inr (.inl ⟨hhigh, h, ?_⟩)
          simp only [if_pos (hest.1 h)]
        · have hadd : s.addQueue mac tsid = .ok ({ s₀ with
              ts_ := Function.update s₀.ts_ index
                (some (Function.update ts (tsid.toNat - TSID_INDEX) (some []))) }, true) := by
            unfold addQueue
            rw [hget]
            simp only [if_neg hlow, harr, if_neg fun hc => h (hest.2 hc)]
          unfold addQueue at hadd
          simp only [hget, if_neg hlow, harr] at hadd
          exact .inr (.inr ⟨hhigh, h, _, ts, hadd, ⟨hsame.1, hsame.2, hsame.3, hsame.4⟩, rfl, hts', by
            rw [← hts]⟩)

/-- The streams with the new one, for the service interval that it gives. -/
def scheduled (e : mac802_11e) (s : QosScheduler_HC) (newdesc : tspec_desc) : List tspec_desc :=
  (s.head_desc ++ [newdesc]).map (schedule e (minSI (s.head_desc ++ [newdesc])))

/-- A feasible stream is admitted. -/
theorem admit_feasible (mac : EtherAddr) (tspec : TSPEC) (Direction : dir_) (h : s.Feasible e newdesc) :
    ∃ s', admission e s mac tspec Direction newdesc = .ok (s', 0) ∧ s'.head_desc = scheduled e s newdesc ∧
      s'.Service_Interval = minSI (s.head_desc ++ [newdesc]) := by
  have htest : feasible e (minSI (s.head_desc ++ [newdesc])) ((s.head_desc ++ [newdesc]).map
      (schedule e (minSI (s.head_desc ++ [newdesc])))) = true := h
  unfold admission
  simp only [if_pos htest]
  exact ⟨_, rfl, rfl, rfl⟩

/-- The state that the undoing of an admission leaves, with the queues `ts_`. -/
def undone (e : mac802_11e) (s : QosScheduler_HC) (newdesc : tspec_desc)
    (ts_ : ℕ → Option (ℕ → Option ParaQueue)) : QosScheduler_HC :=
  { s with
    head_desc := s.head_desc.map fun p => { schedule e (minSI (s.head_desc ++ [newdesc])) p with
      txop := p.txop }
    allocs := s.allocs + 1
    pre_SI := s.Service_Interval
    ts_ := ts_ }

/-- Without its last stream and with the old times, the schedule is the old one. -/
theorem dropLast_scheduled (e : mac802_11e) (si : UInt16) (l : List tspec_desc) (newdesc : tspec_desc) :
    (((l ++ [newdesc]).map (schedule e si)).dropLast).map (fun p => { p with txop := p.pre_txop }) =
      l.map fun p => { schedule e si p with txop := p.txop } := by
  rw [List.map_append, List.map_cons, List.map_nil, List.dropLast_concat, List.map_map]
  rfl

/-- An uplink stream that does not fit is undone. -/
theorem admit_uplink (h : ¬ s.Feasible e newdesc) :
    admission e s mac tspec .UPLINK newdesc = .ok (undone e s newdesc s.ts_, 1) := by
  have htest : ¬ feasible e (minSI (s.head_desc ++ [newdesc])) ((s.head_desc ++ [newdesc]).map
      (schedule e (minSI (s.head_desc ++ [newdesc])))) = true := h
  unfold admission
  simp only [if_neg htest]
  rw [if_neg (by decide)]
  unfold Except.map undone
  simp only [dropLast_scheduled, Int.add_sub_cancel]

/-- A downlink stream that does not fit is undone with its queue. -/
theorem admit_downlink {index : ℕ} {ts : ℕ → Option ParaQueue} (h : ¬ s.Feasible e newdesc)
    (hget : ∀ t : QosScheduler_HC, t.srcmac = s.srcmac → t.getIndex mac = some (t, index))
    (hts : s.ts_ index = some ts) :
    admission e s mac tspec .DOWNLINK newdesc = .ok (undone e s newdesc (Function.update s.ts_ index
      (some (Function.update ts (tspec.TSInfo_TSID.toNat - TSID_INDEX) none))), 1) := by
  have htest : ¬ feasible e (minSI (s.head_desc ++ [newdesc])) ((s.head_desc ++ [newdesc]).map
      (schedule e (minSI (s.head_desc ++ [newdesc])))) = true := h
  unfold admission
  simp only [if_neg htest]
  have hremove : ∀ t : QosScheduler_HC, t.srcmac = s.srcmac → t.ts_ = s.ts_ →
      t.removeQueue mac tspec.TSInfo_TSID = .ok { t with
        ts_ := Function.update s.ts_ index
          (some (Function.update ts (tspec.TSInfo_TSID.toNat - TSID_INDEX) none)) } := by
    intro t hmac hqueues
    unfold removeQueue
    rw [hget t hmac]
    simp only [hqueues, hts]
  rw [if_pos trivial, hremove]
  · unfold Except.map undone
    simp only [dropLast_scheduled, Int.add_sub_cancel]
  · rfl
  · rfl

/-- The undoing restores the streams exactly when the numbers of packets are the same. -/
theorem streams_undone (e : mac802_11e) (s : QosScheduler_HC) (newdesc : tspec_desc)
    (ts_ : ℕ → Option (ℕ → Option ParaQueue)) :
    (undone e s newdesc ts_).streams = s.streams ↔ s.KeepsNums e newdesc := by
  have hstreams : (undone e s newdesc ts_).streams = s.head_desc.map fun p =>
      { p with Num := numOf e (minSI (s.head_desc ++ [newdesc])) p, pre_txop := 0 } := by
    unfold streams undone
    rw [List.map_map]
    rfl
  rw [hstreams]
  unfold streams KeepsNums
  rw [List.map_inj_left]
  refine forall₂_congr fun p _ => ?_
  constructor
  · exact fun heq => congrArg tspec_desc.Num heq
  · exact fun heq => by rw [heq]

/-! ## Refusals leave everything as it was -/

/-- When the undone state is the old one. -/
theorem unchanged_undone (e : mac802_11e) (s : QosScheduler_HC) (newdesc : tspec_desc)
    (ts_ : ℕ → Option (ℕ → Option ParaQueue)) {s₀ : QosScheduler_HC} (hsame : SameStreams s₀ s) :
    s₀.Unchanged (undone e s newdesc ts_) ↔ s₀.KeepsNums e newdesc ∧
      ∀ index tsid, ((ts_ index).bind fun ts => ts tsid) = s₀.queue index tsid := by
  have hstreams : s.streams = s₀.streams := by
    unfold streams
    rw [hsame.head_desc]
  have hkeeps : s.KeepsNums e newdesc ↔ s₀.KeepsNums e newdesc := by
    unfold KeepsNums
    rw [hsame.head_desc]
  rw [← hkeeps, ← streams_undone e s newdesc ts_]
  constructor
  · exact fun h => ⟨h.streams.trans hstreams.symm, h.queues⟩
  · exact fun h => ⟨h.1.trans hstreams, hsame.tsNum, hsame.interval, h.2⟩

/-- The same streams and queues are an unchanged state. -/
theorem unchanged_same (hsame : SameStreams s s₁) (hts : s₁.ts_ = s.ts_) : s.Unchanged s₁ := by
  refine ⟨?_, hsame.tsNum, hsame.interval, fun index tsid => ?_⟩
  · unfold streams
    rw [hsame.head_desc]
  · unfold queue
    rw [hts]

/-- The same streams have the same schedule. -/
theorem feasible_same (hsame : SameStreams s s₁) : s₁.Feasible e newdesc ↔ s.Feasible e newdesc := by
  unfold Feasible
  rw [hsame.head_desc]

/-- A call that is not refused at once. -/
theorem reg_TSPEC_eq (e : mac802_11e) (proto : pro_) (unset' : dir_) (h : ¬ s.Refused mac tspec unset) :
    reg_TSPEC e s mac tspec proto unset unset' =
      match tspec.direction unset with
      | .UPLINK => admission e s mac tspec .UPLINK (create_TSPECdesc e s.allocs mac tspec proto unset')
      | .DOWNLINK =>
        match s.addQueue mac tspec.TSInfo_TSID with
        | .error stop => .error stop
        | .ok (s, false) => .ok (s, -1)
        | .ok (s, true) => admission e s mac tspec .DOWNLINK (create_TSPECdesc e s.allocs mac tspec proto unset')
      | .indeterminate _ => .ok (s, -1) := by
  unfold Refused at h
  rw [not_or] at h
  have hid : ¬ MAX_TSID < tspec.TSInfo_TSID.toNat := by
    have := tspec.TSInfo_TSID.isLt
    unfold MAX_TSID
    omega
  refine (if_neg h.1).trans ((if_neg h.2).trans ((if_neg hid).trans ?_))
  cases tspec.direction unset <;> rfl

/-- A refused TSPEC returns -1 and changes nothing. -/
theorem reg_TSPEC_refused (h : s.Refused mac tspec unset) :
    reg_TSPEC e s mac tspec proto unset unset' = .ok (s, -1) := by
  unfold reg_TSPEC
  rcases h with hfound | hzero
  · simp only [if_pos hfound]
  · by_cases hfound : (find_TSPECdesc s.head_desc mac (tspec.direction unset) tspec.TSInfo_TSID).isSome
    · simp only [if_pos hfound]
    · simp only [if_neg hfound, if_pos hzero]

/-- Atomicity of a call that returns. -/
theorem atomic_ok (hreg : reg_TSPEC e s mac tspec proto unset unset' = .ok (s', result)) :
    s.Atomic e mac tspec proto unset unset' ↔ (result ≠ 0 → s.Unchanged s') := by
  unfold Atomic
  rw [hreg]

/-- Removing the queue of the new stream restores the queues when there was none. -/
theorem queues_restored {index : ℕ} {ts : ℕ → Option ParaQueue} (hts : ∀ j, ts j = s.queue index j) (j : ℕ)
    {ts_ : ℕ → Option (ℕ → Option ParaQueue)}
    (hset : ts_ = Function.update s.ts_ index (some (Function.update ts j (some [])))) :
    (∀ i tsid, ((Function.update ts_ index (some (Function.update (Function.update ts j (some [])) j none))
      i).bind fun ts => ts tsid) = s.queue i tsid) ↔ s.queue index j = none := by
  rw [hset, Function.update_idem, Function.update_idem]
  constructor
  · intro h
    have hj := h index j
    rw [Function.update_self, Option.bind_some, Function.update_self] at hj
    exact hj.symm
  · intro hnone i tsid
    by_cases hi : i = index
    · subst hi
      rw [Function.update_self, Option.bind_some]
      by_cases ht : tsid = j
      · subst ht
        rw [Function.update_self, hnone]
      · rw [Function.update_of_ne ht, hts]
    · rw [Function.update_of_ne hi]
      rfl

/-- **Atomicity.** The calls that are atomic are those of the condition. -/
theorem atomic_iff (e : mac802_11e) (s : QosScheduler_HC) (mac : EtherAddr) (tspec : TSPEC) (proto : pro_)
    (unset unset' : dir_) :
    s.Atomic e mac tspec proto unset unset' ↔ s.AtomicWhen e mac tspec proto unset unset' := by
  unfold AtomicWhen
  by_cases hrefused : s.Refused mac tspec unset
  · rw [atomic_ok (reg_TSPEC_refused hrefused)]
    exact ⟨fun _ => .inl hrefused, fun _ _ => unchanged_same (.refl s) rfl⟩
  rw [or_iff_right hrefused]
  have hreg := reg_TSPEC_eq e proto unset' hrefused
  cases hdir : tspec.direction unset with
  | indeterminate value =>
    rw [hdir] at hreg
    rw [atomic_ok hreg]
    exact ⟨fun _ => trivial, fun _ _ => unchanged_same (.refl s) rfl⟩
  | UPLINK =>
    rw [hdir] at hreg
    dsimp only at hreg ⊢
    by_cases hfeasible : s.Feasible e (create_TSPECdesc e s.allocs mac tspec proto unset')
    · obtain ⟨s', hadmit, -, -⟩ := admit_feasible mac tspec .UPLINK hfeasible
      rw [atomic_ok (hreg.trans hadmit)]
      exact ⟨fun _ => .inl hfeasible, fun _ hne => absurd rfl hne⟩
    · rw [atomic_ok (hreg.trans (admit_uplink hfeasible)), or_iff_right hfeasible,
        unchanged_undone e s _ s.ts_ (.refl s)]
      exact ⟨fun h => (h (by decide)).1, fun h _ => ⟨h, fun _ _ => rfl⟩⟩
  | DOWNLINK =>
    rw [hdir] at hreg
    dsimp only at hreg ⊢
    rcases addQueue_cases s mac tspec.TSInfo_TSID with ⟨hget, hadd⟩ | ⟨s₀, index, hget, hcases⟩
    · rw [hadd] at hreg
      rw [hget]
      unfold Atomic
      rw [hreg]
    · rw [hget]
      dsimp only
      rcases hcases with ⟨hlow, hadd⟩ | ⟨hhigh, hest, hadd⟩ | ⟨hhigh, hest, s₁, ts, hadd, hsame, hmac, hts, hset⟩
      · rw [hadd] at hreg
        unfold Atomic
        rw [hreg]
        exact ⟨False.elim, fun h => absurd h.1 (Nat.not_le.2 hlow)⟩
      · rw [hadd] at hreg
        rw [atomic_ok hreg]
        obtain ⟨hsame, hts, -⟩ := getIndex_same hget
        exact ⟨fun _ => ⟨hhigh, .inl hest⟩, fun _ _ => unchanged_same hsame hts⟩
      · rw [hadd] at hreg
        dsimp only at hreg
        rw [hsame.allocs] at hreg
        rw [and_iff_right hhigh, or_iff_right hest]
        by_cases hfeasible : s.Feasible e (create_TSPECdesc e s.allocs mac tspec proto unset')
        · obtain ⟨s', hadmit, -, -⟩ := admit_feasible mac tspec .DOWNLINK
            ((feasible_same hsame).2 hfeasible)
          rw [atomic_ok (hreg.trans hadmit)]
          exact ⟨fun _ => .inl hfeasible, fun _ hne => absurd rfl hne⟩
        · have hinfeasible := fun h => hfeasible ((feasible_same hsame).1 h)
          have hget₁ : ∀ t : QosScheduler_HC, t.srcmac = s₁.srcmac → t.getIndex mac = some (t, index) :=
            fun t ht => (getIndex_same hget).2.2.2 t (ht.trans hmac)
          have harr : s₁.ts_ index =
              some (Function.update ts (tspec.TSInfo_TSID.toNat - TSID_INDEX) (some [])) := by
            rw [hset, Function.update_self]
          rw [atomic_ok (hreg.trans (admit_downlink hinfeasible hget₁ harr)), or_iff_right hfeasible,
            unchanged_undone e s₁ _ _ hsame, queues_restored hts _ hset]
          exact ⟨fun h => (h (by decide)).symm, fun h _ => h.symm⟩

/-- **Deletion.** Deleting a stream of the list removes it and nothing else. -/
theorem deletes_all (s : QosScheduler_HC) (mac : EtherAddr) (direction : dir_) (tsid : BitVec 4) :
    s.Deletes mac direction tsid := by
  unfold Deletes
  cases hfind : find_TSPECdesc s.head_desc mac direction tsid with
  | none => trivial
  | some p =>
    obtain ⟨hp, pre, post, hsplit, hpre⟩ := List.find?_eq_some_iff_append.1 hfind
    have herase : s.head_desc.eraseP (fun p => p.qsta = mac ∧ p.direction = direction ∧ p.tsid = tsid) =
        pre ++ post := by
      have hfirst : (p :: post).eraseP (fun p => p.qsta = mac ∧ p.direction = direction ∧ p.tsid = tsid) =
          post := List.eraseP_cons_of_pos hp
      rw [hsplit, List.eraseP_append_right _ fun q hq => ?_, hfirst]
      have hnot := hpre q hq
      rwa [Bool.not_eq_true', ← Bool.not_eq_true] at hnot
    unfold delete_TS
    rw [hfind]
    dsimp only
    rw [herase]
    by_cases hcurr : s.curr_desc = some p.ptr
    · rw [if_pos hcurr]
      exact ⟨pre, post, _, hsplit, rfl, rfl, rfl, rfl, fun _ _ => rfl⟩
    · rw [if_neg hcurr]
      exact ⟨pre, post, _, hsplit, rfl, rfl, rfl, rfl, fun _ _ => rfl⟩

/-- **Atomicity.** A call that admits nothing leaves the streams as they were if and only if it is refused
at once or recomputes the numbers of packets to what they are; a deletion takes one stream out. -/
theorem reg_TSPEC_atomic (e : mac802_11e) (s : QosScheduler_HC) (mac : EtherAddr) (tspec : TSPEC)
    (proto : pro_) (unset unset' direction : dir_) (tsid : BitVec 4) :
    (s.Atomic e mac tspec proto unset unset' ↔ s.AtomicWhen e mac tspec proto unset unset') ∧
      s.Deletes mac direction tsid :=
  ⟨atomic_iff e s mac tspec proto unset unset', deletes_all s mac direction tsid⟩

/-- A byte takes a microsecond. -/
def slowMac : mac802_11e where
  TX_Time size := (size + 200).toUInt64
  sifs := 10
  pifs := 30
  wide _ := 0

/-- An uplink stream that asks for more than the longest transmission opportunity. -/
def bigUplink : TSPEC := ⟨8, 0, false, false, 0, 1000, 1500, 150, 66⟩

/-- The scheduler of a station with one stream, of ten packets in 66 milliseconds. -/
def oneStream : QosScheduler_HC :=
  { init 0 with
    head_desc := [schedule slowMac 66 (create_TSPECdesc slowMac 0 1 bigUplink .UDP .UPLINK)]
    tsNum := 1
    Service_Interval := 66
    allocs := 1 }

/-- A stream that is to be served every millisecond is not admitted, but the other one is left with one
packet in 66 milliseconds. -/
theorem number_not_restored :
    ¬ oneStream.Atomic slowMac 2 { bigUplink with MaximumServiceInterval := 1 } .UDP .UPLINK .UPLINK := by
  have hcall : (reg_TSPEC slowMac oneStream 2 { bigUplink with MaximumServiceInterval := 1 } .UDP .UPLINK
      .UPLINK).map (fun x => (x.2, x.1.streams.map tspec_desc.Num)) = .ok (1, [1]) := by decide
  have hbefore : oneStream.streams.map tspec_desc.Num = [10] := by decide
  obtain ⟨⟨s', result⟩, hreg, heq⟩ := Outcome.of_map_eq_ok hcall
  obtain ⟨rfl, hnums⟩ := Prod.ext_iff.1 heq
  rw [atomic_ok hreg]
  intro hatomic
  have hnums' := congrArg (List.map tspec_desc.Num) (hatomic (by decide)).streams
  rw [hbefore] at hnums'
  exact absurd (hnums.symm.trans hnums') (by decide)

/-! ## The load after an admission -/

/-- The removal of a queue leaves the streams. -/
theorem removeQueue_same {tsid : BitVec 4} (h : s.removeQueue mac tsid = .ok s') :
    SameStreams s s' ∧ s'.pre_SI = s.pre_SI := by
  unfold removeQueue at h
  cases hget : s.getIndex mac with
  | none =>
    rw [hget] at h
    cases h
  | some found =>
    obtain ⟨s₀, index⟩ := found
    rw [hget] at h
    dsimp only at h
    cases harr : s₀.ts_ index with
    | none =>
      rw [harr] at h
      cases h
    | some ts =>
      rw [harr] at h
      cases h
      obtain ⟨hsame, -⟩ := getIndex_same hget
      have hpre : s₀.pre_SI = s.pre_SI := by
        unfold getIndex at hget
        split at hget
        · cases hget
          rfl
        · split at hget
          · cases hget
            rfl
          · cases hget
      exact ⟨⟨hsame.1, hsame.2, hsame.3, hsame.4⟩, hpre⟩

/-- The new stream is admitted, or the streams keep their maximum service intervals. -/
def Result (e : mac802_11e) (s : QosScheduler_HC) (newdesc : tspec_desc) (s' : QosScheduler_HC)
    (result : Int) : Prop :=
  (result ≠ 0 ∧ s'.head_desc.map tspec_desc.max_SI = s.head_desc.map tspec_desc.max_SI) ∨
    (result = 0 ∧ s.Feasible e newdesc ∧ s'.head_desc = scheduled e s newdesc ∧
      s'.Service_Interval = minSI (s.head_desc ++ [newdesc]))

/-- **Inversion.** What an admission can do. -/
theorem admit_cases {Direction : dir_} (h : admission e s mac tspec Direction newdesc = .ok (s', result)) :
    Result e s newdesc s' result := by
  by_cases hfeasible : s.Feasible e newdesc
  · obtain ⟨t, hadmit, hlist, hsi⟩ := admit_feasible mac tspec Direction hfeasible
    cases h.symm.trans hadmit
    exact .inr ⟨rfl, hfeasible, hlist, hsi⟩
  · have htest : ¬ feasible e (minSI (s.head_desc ++ [newdesc])) ((s.head_desc ++ [newdesc]).map
        (schedule e (minSI (s.head_desc ++ [newdesc])))) = true := hfeasible
    have hintervals : ((((s.head_desc ++ [newdesc]).map
        (schedule e (minSI (s.head_desc ++ [newdesc])))).dropLast).map fun p =>
          { p with txop := p.pre_txop }).map tspec_desc.max_SI = s.head_desc.map tspec_desc.max_SI := by
      rw [dropLast_scheduled, List.map_map]
      rfl
    unfold admission at h
    simp only [if_neg htest] at h
    by_cases hdown : Direction = .DOWNLINK
    · rw [if_pos hdown] at h
      obtain ⟨t, ht, heq⟩ := Outcome.of_map_eq_ok h
      cases heq
      refine .inl ⟨by decide, ?_⟩
      rw [(removeQueue_same ht).1.head_desc]
      exact hintervals
    · rw [if_neg hdown] at h
      cases h
      exact .inl ⟨by decide, hintervals⟩

/-- **Inversion.** What a registration can do. -/
theorem reg_TSPEC_cases (h : reg_TSPEC e s mac tspec proto unset unset' = .ok (s', result)) :
    Result e s (create_TSPECdesc e s.allocs mac tspec proto unset') s' result ∧
      (result = 0 → tspec.MaximumServiceInterval ≠ 0) := by
  by_cases hrefused : s.Refused mac tspec unset
  · cases h.symm.trans (reg_TSPEC_refused hrefused)
    exact ⟨.inl ⟨by decide, rfl⟩, fun h0 => absurd h0 (by decide)⟩
  · refine ⟨?_, fun _ h0 => hrefused (.inr (.inr (.inr (.inr h0))))⟩
    rw [reg_TSPEC_eq e proto unset' hrefused] at h
    cases hdir : tspec.direction unset with
    | indeterminate value =>
      rw [hdir] at h
      cases h
      exact .inl ⟨by decide, rfl⟩
    | UPLINK =>
      rw [hdir] at h
      exact admit_cases h
    | DOWNLINK =>
      rw [hdir] at h
      dsimp only at h
      rcases addQueue_cases s mac tspec.TSInfo_TSID with ⟨-, hadd⟩ | ⟨s₀, index, hget, hcases⟩
      · rw [hadd] at h
        cases h
      · rcases hcases with ⟨-, hadd⟩ | ⟨-, -, hadd⟩ | ⟨-, -, s₁, ts, hadd, hsame, -⟩
        · rw [hadd] at h
          cases h
        · rw [hadd] at h
          cases h
          exact .inl ⟨by decide, by rw [(getIndex_same hget).1.head_desc]⟩
        · rw [hadd] at h
          dsimp only at h
          rw [hsame.allocs] at h
          have hresult := admit_cases h
          unfold Result Feasible scheduled at hresult ⊢
          rw [hsame.head_desc] at hresult
          exact hresult

/-- No stream in the list has a maximum service interval of zero. -/
def Positive (s : QosScheduler_HC) : Prop := ∀ p ∈ s.head_desc, p.max_SI ≠ 0

/-- Positive intervals, read off the list. -/
theorem positive_iff (s : QosScheduler_HC) :
    Positive s ↔ ∀ i ∈ s.head_desc.map tspec_desc.max_SI, i ≠ 0 := by
  unfold Positive
  rw [List.forall_mem_map]

/-- Every call keeps the intervals positive. -/
theorem step_positive {c : Call} (h : Positive s) (hstep : step e s c = .ok s') : Positive s' := by
  cases c with
  | reg_TSPEC mac tspec proto unset unset' =>
    obtain ⟨⟨t, result⟩, hreg, rfl⟩ := Outcome.of_map_eq_ok hstep
    obtain ⟨hresult, hmax⟩ := reg_TSPEC_cases hreg
    rcases hresult with ⟨-, hsame⟩ | ⟨hzero, -, hlist, -⟩
    · rw [positive_iff] at h ⊢
      rw [hsame]
      exact h
    · intro p hp
      rw [hlist] at hp
      obtain ⟨q, hq, rfl⟩ := List.mem_map.1 hp
      rcases List.mem_append.1 hq with hold | hnew
      · exact h q hold
      · obtain rfl := List.mem_singleton.1 hnew
        exact hmax hzero
  | delete_TS mac direction tsid =>
    have hdel : s.delete_TS mac direction tsid = .ok s' := hstep
    have hall := deletes_all s mac direction tsid
    unfold Deletes at hall
    cases hfind : find_TSPECdesc s.head_desc mac direction tsid with
    | none =>
      unfold delete_TS at hdel
      rw [hfind] at hdel
      cases hdel
    | some p =>
      rw [hfind] at hall
      obtain ⟨pre, post, t, hsplit, ht, hlist, -⟩ := hall
      cases ht.symm.trans hdel
      intro q hq
      rw [hlist] at hq
      refine h q ?_
      rw [hsplit]
      rcases List.mem_append.1 hq with hpre | hpost
      · exact List.mem_append_left _ hpre
      · exact List.mem_append_right _ (List.mem_cons_of_mem _ hpost)

/-- After an admission the service interval suits all streams, and where the sum of the test has not
wrapped, they fit into it. -/
theorem admits_spec {c : Call} (h : Positive s) (hadmits : Admits e s c s') :
    SuitsAll s' ∧ (SumFits e s c → load e s' ≤ s'.Service_Interval.toNat * 1000) := by
  obtain ⟨mac, tspec, proto, unset, unset', rfl, hreg⟩ := hadmits
  obtain ⟨hresult, hmax⟩ := reg_TSPEC_cases hreg
  rcases hresult with ⟨hne, -⟩ | ⟨-, hfeasible, hlist, hsi⟩
  · exact absurd rfl hne
  · constructor
    · intro p hp
      rw [hlist] at hp
      obtain ⟨q, hq, rfl⟩ := List.mem_map.1 hp
      rw [hsi]
      refine minSI_le (fun r hr => ?_) q hq
      rcases List.mem_append.1 hr with hold | hnew
      · exact h r hold
      · obtain rfl := List.mem_singleton.1 hnew
        exact hmax rfl
    · intro hfits
      unfold Feasible at hfeasible
      have hsum := (feasible_iff e _ _).1 hfeasible
      have hload : load e s' = ((s.head_desc ++ [create_TSPECdesc e s.allocs mac tspec proto unset']).map
          fun p => (txopOf e (minSI (s.head_desc ++
            [create_TSPECdesc e s.allocs mac tspec proto unset'])) p).toNat + e.pifs.toNat).sum := by
        unfold load
        rw [hlist, scheduled, List.map_map]
        rfl
      have hsum' : ((s.head_desc ++ [create_TSPECdesc e s.allocs mac tspec proto unset']).map
          (schedule e (minSI (s.head_desc ++ [create_TSPECdesc e s.allocs mac tspec proto unset'])))).map
          (fun p => p.txop.toNat + e.pifs.toNat) = (s.head_desc ++
            [create_TSPECdesc e s.allocs mac tspec proto unset']).map fun p => (txopOf e (minSI
              (s.head_desc ++ [create_TSPECdesc e s.allocs mac tspec proto unset'])) p).toNat +
                e.pifs.toNat := by
        rw [List.map_map]
        rfl
      rw [hsum', Nat.mod_eq_of_lt hfits] at hsum
      rw [hload, hsi]
      exact hsum

/-- **Admission.** In every run of calls, the service interval suits all streams after each admission, and
they fit into it where the 16-bit sum of the admission test has not wrapped. -/
theorem admission_sound (e : mac802_11e) (mac_ : EtherAddr) (calls : List Call) :
    Run.Along (step e) (fun s c => ∀ s', Admits e s c s' → SuitsAll s' ∧
      (SumFits e s c → load e s' ≤ s'.Service_Interval.toNat * 1000)) (init mac_) calls := by
  have hstart : Positive (init mac_) := fun p hp => absurd hp List.not_mem_nil
  exact Run.Along.of_inv (fun _ _ _ hpos _ hstep => step_positive hpos hstep)
    (fun _ _ hpos _ _ hadmits => admits_spec hpos hadmits) hstart (Run.Along.true _ _)

/-- A stream of the station `n`. -/
def station (n : ℕ) : Call := .reg_TSPEC (.ofNat 48 n) bigUplink .UDP .UPLINK .UPLINK

/-- The result for the ninth station. -/
def ninth (e : mac802_11e) : Except Stop (QosScheduler_HC × Int) :=
  match Run.exec (step e) (init 0) ((List.range 8).map station) with
  | .error stop => .error stop
  | .ok s => reg_TSPEC e s (.ofNat 48 9) bigUplink .UDP .UPLINK .UPLINK

/-- The sum for the ninth stream wraps to 8174 microseconds, so that nine times 8190 microseconds are
admitted into 66 milliseconds. -/
theorem overloaded_by_nine :
    ∃ s s', Run.exec (step slowMac) (init 0) ((List.range 8).map station) = .ok s ∧
      Admits slowMac s (station 9) s' ∧ ¬ load slowMac s' ≤ s'.Service_Interval.toNat * 1000 := by
  have hninth : (ninth slowMac).map (fun x => (x.2, load slowMac x.1, x.1.Service_Interval.toNat)) =
      .ok (0, 73710, 66) := by decide
  unfold ninth at hninth
  cases hrun : Run.exec (step slowMac) (init 0) ((List.range 8).map station) with
  | error stop =>
    rw [hrun] at hninth
    cases hninth
  | ok s =>
    rw [hrun] at hninth
    obtain ⟨⟨s', result⟩, hreg, heq⟩ := Outcome.of_map_eq_ok hninth
    obtain ⟨rfl, heq⟩ := Prod.ext_iff.1 heq
    obtain ⟨hload, hsi⟩ := Prod.ext_iff.1 heq
    dsimp only at hload hsi
    refine ⟨s, s', rfl, ⟨_, _, _, _, _, rfl, hreg⟩, ?_⟩
    rw [hload, hsi]
    decide

end Hcca
