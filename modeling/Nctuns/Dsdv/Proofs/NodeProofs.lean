import Nctuns.Dsdv.Node
import Nctuns.Dsdv.Proofs.DsdvdProofs

/-!
# The counter and the deaths

While the entry of a node for itself is young when the loop over the table comes to it, the counter is
right. It is never too small. A death is announced once in the life of an entry, as an entry that is
taken again keeps `already_bcast`.
-/

namespace Dsdv

namespace DSDVd

variable {N : Type*} [DecidableEq N] {n from_ : N} {now : Nat} {s : DSDVd N} {a : RtUnit N} {i : Input N}

/-- The table after a loop that has found something `expired`. -/
def rebuilt (expired : Bool) (s : DSDVd N) : DSDVd N :=
  if expired then { s with rows := s.rows.filter fun r => !r.expire_flag } else s

/-- The check: labels, and an advertisement where something is to be told. -/
theorem selfCheck_eq (s : DSDVd N) (now : Nat) (junk : List (RtUnit N)) :
    s.selfCheck now junk =
      if (s.labelled now).now_counter > 0 then
        match (s.labelled now).sendAdvPktNow junk with
        | .error e => .error e
        | .ok (t, advert) =>
          .ok (rebuilt (s.rows.any fun r => s.Expires now r) { t with now_counter := 0 }, [advert])
      else .ok (rebuilt (s.rows.any fun r => s.Expires now r) (s.labelled now), []) := rfl

/-- A step: what is found out, then the check. -/
theorem step_eq (i : Input N) (h : s.rows ≠ []) :
    s.step i = ((s.found i).selfCheck i.now i.junk).map Prod.fst := by
  cases i with
  | advPkt now advert junk => rfl
  | timer now junk =>
    unfold step handle sendAdvPktRegular
    simp only [if_neg h]
    unfold found Input.now Input.junk
    cases (s.renew now).selfCheck now junk <;> rfl

/-! ## The counter -/

/-- The loop over the table finds one that is as `Going` says. -/
theorem Tidy.found (h : s.Tidy n) (i : Input N) (hi : i.Distinct) :
    ∃ num time done, (s.found i).Going (ownUnit n num time) i.now done ∧
      (s.found i).expire_time_out_ = s.expire_time_out_ ∧
      (age i.now (ownUnit n num time) ≤ s.expire_time_out_ ↔ s.FirstYoung i) := by
  obtain ⟨num, time, rest, hrows⟩ := h.own
  cases i with
  | advPkt now advert junk =>
    obtain ⟨done, hgoing⟩ := (h.going hrows now).foldl advert.from_ (fun _ _ => List.not_mem_nil) hi
    refine ⟨num, time, done, hgoing, foldl_update_timeout .., ?_⟩
    unfold FirstYoung
    rw [hrows]
    simp [Input.now]
  | timer now junk =>
    refine ⟨s.seq, now, [], (h.renew now).going (h.renew_rows hrows now) now, rfl, ?_⟩
    have hage : age now (ownUnit n s.seq now) = 0 := age_self now rfl
    exact iff_of_true (hage ▸ Nat.zero_le _ : age now (ownUnit n s.seq now) ≤ _) trivial

/-- The labelled table. -/
theorem labelled_rows {r : RtUnit N} {rest : List (RtUnit N)} (hrows : s.rows = r :: rest) (now : Nat) :
    (s.labelled now).rows = s.labelUnit now r :: rest.map (s.labelUnit now) := by
  unfold labelled
  rw [hrows]
  rfl

/-- The counter has been counted right unless the entry of the node for itself is too old. -/
theorem counted_iff (h : s.Tidy n) (hi : i.Distinct) : s.Counted i ↔ s.FirstYoung i := by
  obtain ⟨num, time, done, hgoing, htimeout, hyoung⟩ := h.found i hi
  have hmip : (s.found i).mip = s.mip := hgoing.mip.trans h.mip.symm
  rw [← hyoung, ← htimeout]
  unfold Counted
  generalize s.found i = t at hgoing hmip ⊢
  obtain ⟨rest, hrows⟩ := hgoing.head
  have hlabelled := labelled_rows hrows i.now
  have hcounter : (t.labelled i.now).now_counter =
      (t.labelled i.now).rows.countP fun r => r.need_adv_now := by
    show t.now_counter + _ = (t.rows.map (t.labelUnit i.now)).countP _
    rw [hgoing.counter, countP_label t i.now fun r hr hmarked => (hgoing.flagged r hr hmarked).2]
  rw [hlabelled, List.countP_cons] at hcounter
  by_cases hage : age i.now (ownUnit n num time) ≤ t.expire_time_out_
  · rw [labelUnit_young t hage] at hlabelled hcounter
    rw [hgoing.unmarked, if_neg Bool.false_ne_true, Nat.add_zero] at hcounter
    refine iff_of_true (fun _ => ⟨by rw [hcounter, hlabelled]; rfl, fun junk => ?_⟩) hage
    rw [hlabelled, ← hmip]
    exact ⟨_, sendAdvPktNow_ok hlabelled hcounter⟩
  · have hmarked : (t.labelUnit i.now (ownUnit n num time)).need_adv_now = true := by
      unfold labelUnit
      rw [if_pos (Nat.lt_of_not_le hage), if_pos ⟨rfl, rfl⟩]
    rw [if_pos hmarked] at hcounter
    refine iff_of_false (fun hcounted => ?_) hage
    have hsame := (hcounted (by omega)).1
    rw [hcounter, hlabelled] at hsame
    exact absurd hsame (Nat.succ_ne_self _)

/-- A step of a node keeps its table tidy. -/
theorem Tidy.step {t : DSDVd N} (h : s.Tidy n) (hi : i.Distinct) (hyoung : s.FirstYoung i)
    (hstep : s.step i = .ok t) : t.Tidy n := by
  obtain ⟨num, time, done, hgoing, htimeout, hiff⟩ := h.found i hi
  obtain ⟨t', adverts, hcheck, htidy, -⟩ := hgoing.selfCheck (htimeout ▸ hiff.2 hyoung) i.junk
  have hrows : s.rows ≠ [] := by
    obtain ⟨_, _, _, hrows⟩ := h.own
    rw [hrows]
    exact List.cons_ne_nil _ _
  rw [step_eq i hrows, hcheck] at hstep
  obtain rfl := Except.ok.inj hstep
  exact htidy

/-- **The counter.** In a run on advertisements with distinct destinations, all immediate advertisements
    are counted right exactly if no advertisement arrives while the first entry is too old. -/
theorem sendAdvPktNow_counts (mip : N) (expire_time_out_ now : Nat) (inputs : List (Input N))
    (h : ∀ i ∈ inputs, i.Distinct) :
    Run.Along step Counted (init mip expire_time_out_ now) inputs ↔
      Run.Along step FirstYoung (init mip expire_time_out_ now) inputs :=
  Run.along_iff_along (I := Tidy mip) (D := fun _ i => i.Distinct) (fun _ _ hs hi => counted_iff hs hi)
    (fun _ _ _ hs hi hyoung hstep => hs.step hi hyoung hstep) (init_tidy mip _ _)
    (Run.Along.of_forall h _)

/-- The node 1 is heard, and reported dead with the counter 1. -/
theorem sendAdvPktNow_counts_dead_neighbour :
    Run.Along step Counted (init (0 : Fin 3) 10 0)
      [.timer 1 [], .advPkt 2 ⟨1, [ownUnit 1 2 2]⟩ [], .timer 11 [], .advPkt 20 ⟨2, [ownUnit 2 2 20]⟩ []] :=
  (sendAdvPktNow_counts _ _ _ _ (by decide)).2 (by decide)

/-- The entry of the node for itself is too old when an advertisement arrives. The counter is 1, and no
    entry behind the first one is marked. -/
theorem own_entry_counted :
    ∃ inputs : List (Input (Fin 3)), (∀ i ∈ inputs, i.Distinct) ∧
      ¬ Run.Along step Counted (init 0 10 0) inputs := by
  refine ⟨[.advPkt 100 ⟨1, [ownUnit 1 2 100]⟩ []], by decide, ?_⟩
  rintro ⟨h, -⟩
  exact absurd (h (by decide)).1 (by decide)

/-! ## Marks and flags -/

/-- The table between two steps: behind the first entry none is marked, and what a rebuild would drop has
    been reported broken. -/
structure Quiet (s : DSDVd N) : Prop where
  counter : s.now_counter = 0
  unmarked : ∀ r ∈ s.rows.tail, r.need_adv_now = false
  broken : ∀ r ∈ s.rows, r.expire_flag = true → r.metric = BIG

/-- The table within a step: there is room for all marked entries. -/
structure Busy (s : DSDVd N) : Prop where
  counter : s.rows.tail.countP (fun r => r.need_adv_now) ≤ s.now_counter
  broken : ∀ r ∈ s.rows, r.expire_flag = true → r.metric = BIG

/-- What has become of the entry `r` in a step: it is still there, or has just been taken again, or is
    marked behind the first one with the metric `BIG`. -/
def Follows (now : Nat) (rows : List (RtUnit N)) (r : RtUnit N) : Prop :=
  r ∈ rows ∨ (∃ q ∈ rows, q.dst = r.dst ∧ q.install_time = now ∧ q.expire_flag = false) ∨
    ∃ q ∈ rows.tail, q.dst = r.dst ∧ q.metric = BIG ∧ q.need_adv_now = true

omit [DecidableEq N] in
/-- Nothing is to be told. -/
theorem init_quiet (mip : N) (expire_time_out_ now : Nat) : (init mip expire_time_out_ now).Quiet where
  counter := rfl
  unmarked _ hr := absurd hr List.not_mem_nil
  broken r hr hexpire := by
    obtain rfl := List.mem_singleton.1 hr
    cases hexpire

omit [DecidableEq N] in
/-- Nothing to be told, within a step. -/
theorem Quiet.busy (h : s.Quiet) : s.Busy where
  counter := by
    rw [List.countP_eq_zero.2 fun r hr => by simp [h.unmarked r hr]]
    exact Nat.zero_le _
  broken := h.broken

section Replace

variable {pre post : List (RtUnit N)} {b q r : RtUnit N} (b' : RtUnit N)

omit [DecidableEq N]

/-- A row is the one that was replaced, or is still there. -/
theorem mem_replace (hq : q ∈ pre ++ b :: post) : q = b ∨ q ∈ pre ++ b' :: post := by
  simp only [List.mem_append, List.mem_cons] at hq ⊢
  tauto

theorem mem_tail_replace (hq : q ∈ (pre ++ b :: post).tail) : q = b ∨ q ∈ (pre ++ b' :: post).tail := by
  cases pre with
  | nil => exact Or.inr hq
  | cons p pre => exact mem_replace b' hq

theorem mem_tail_of_ne_nil (hpre : pre ≠ []) : b' ∈ (pre ++ b' :: post).tail := by
  cases pre with
  | nil => exact absurd rfl hpre
  | cons p pre => exact List.mem_append_right _ List.mem_cons_self

/-- A row that takes the place of another one. -/
theorem Follows.replace (h : Follows now (pre ++ b :: post) r)
    (hthis : b.dst = r.dst → Follows now (pre ++ b' :: post) r) : Follows now (pre ++ b' :: post) r := by
  rcases h with hr | ⟨q, hq, hdst, hfresh⟩ | ⟨q, hq, hdst, hmarked⟩
  · rcases mem_replace b' hr with rfl | hr
    · exact hthis rfl
    · exact Or.inl hr
  · rcases mem_replace b' hq with rfl | hq
    · exact hthis hdst
    · exact Or.inr (Or.inl ⟨q, hq, hdst, hfresh⟩)
  · rcases mem_tail_replace b' hq with rfl | hq
    · exact hthis hdst
    · exact Or.inr (Or.inr ⟨q, hq, hdst, hmarked⟩)

/-- An entry changes, and is counted if it is marked. -/
theorem Busy.replace (h : s.Busy) (hrows : s.rows = pre ++ b :: post)
    (hb' : b'.expire_flag = true → b'.metric = BIG) {counter : Nat}
    (hcounter : counter = s.now_counter + if b'.need_adv_now = true then 1 else 0) :
    Busy { s with rows := pre ++ b' :: post, now_counter := counter } := by
  have hold := h.counter
  rw [hrows] at hold
  refine ⟨?_, ?_⟩
  · show (pre ++ b' :: post).tail.countP _ ≤ counter
    cases pre with
    | nil =>
      simp only [List.nil_append, List.tail_cons] at hold ⊢
      omega
    | cons c pre =>
      simp only [List.cons_append, List.tail_cons, List.countP_append, List.countP_cons] at hold ⊢
      omega
  · intro r hr
    rcases mem_replace b hr with rfl | hr
    · exact hb'
    · exact h.broken r (hrows ▸ hr)

end Replace

/-- **One unit** of an advertisement. -/
theorem Follows.update {r : RtUnit N} (h : Follows now s.rows r) (from_ : N) (a : RtUnit N) :
    Follows now (s.update now from_ a).rows r := by
  rcases update_cases now from_ s a with hs | ⟨-, -, -, hs⟩ | ⟨pre, b, post, hrows, hb, -, -, -, -, hs⟩ |
      ⟨pre, b, post, hrows, hb, -, hpre, -, -, -, -, hs⟩
  · rwa [hs]
  · rw [hs]
    rcases h with hr | ⟨q, hq, hfresh⟩ | ⟨q, hq, hmarked⟩
    · exact Or.inl (List.mem_append_left _ hr)
    · exact Or.inr (Or.inl ⟨q, List.mem_append_left _ hq, hfresh⟩)
    · refine Or.inr (Or.inr ⟨q, ?_, hmarked⟩)
      show q ∈ (s.rows ++ [newUnit now from_ a]).tail
      rw [List.tail_append_of_ne_nil (List.ne_nil_of_mem (List.mem_of_mem_tail hq))]
      exact List.mem_append_left _ hq
  · rw [hs]
    rw [hrows] at h
    refine h.replace _ fun hdst => Or.inr (Or.inl ⟨takeUnit now from_ a b, by simp, ?_, rfl, rfl⟩)
    exact hb.symm.trans hdst
  · rw [hs]
    rw [hrows] at h
    refine h.replace _ fun hdst => Or.inr (Or.inr ⟨breakUnit from_ a b, ?_, ?_, rfl, rfl⟩)
    · exact mem_tail_of_ne_nil _ hpre
    · exact hb.symm.trans hdst

/-- **One unit** of an advertisement. -/
theorem Busy.update (h : s.Busy) (now : Nat) (from_ : N) (a : RtUnit N) : (s.update now from_ a).Busy := by
  rcases update_cases now from_ s a with hs | ⟨-, -, -, hs⟩ | ⟨pre, b, post, hrows, -, -, -, -, -, hs⟩ |
      ⟨pre, b, post, hrows, -, -, -, -, -, -, -, hs⟩
  · rwa [hs]
  · rw [hs]
    refine ⟨?_, ?_⟩
    · show (s.rows ++ [newUnit now from_ a]).tail.countP _ ≤ s.now_counter
      have hcounter := h.counter
      cases hrows : s.rows with
      | nil => exact Nat.zero_le _
      | cons r rest =>
        rw [hrows] at hcounter
        rw [List.cons_append, List.tail_cons, List.countP_append]
        exact hcounter
    · intro r hr hexpire
      rcases List.mem_append.1 hr with hr | hr
      · exact h.broken r hr hexpire
      · obtain rfl := List.mem_singleton.1 hr
        cases hexpire
  · rw [hs]
    refine h.replace (takeUnit now from_ a b) hrows (fun hexpire => by cases hexpire) ?_
    by_cases hhop : b.nextHop = from_ <;> simp [takeUnit, hhop]
  · rw [hs]
    exact h.replace (breakUnit from_ a b) hrows (fun _ => rfl) rfl

/-- The units of an advertisement. -/
theorem Busy.foldl (h : s.Busy) (now : Nat) (from_ : N) (units : List (RtUnit N)) :
    (units.foldl (DSDVd.update now from_) s).Busy := by
  induction units generalizing s with
  | nil => exact h
  | cons a units ih => exact ih (h.update now from_ a)

/-- The units of an advertisement. -/
theorem Follows.foldl {r : RtUnit N} (h : Follows now s.rows r) (from_ : N) (units : List (RtUnit N)) :
    Follows now (units.foldl (DSDVd.update now from_) s).rows r := by
  induction units generalizing s with
  | nil => exact h
  | cons a units ih => exact ih (h.update from_ a)

/-! ## The loop over the table -/

/-- A route that dies is to be told. -/
theorem labelUnit_dies {r : RtUnit N} (h : s.Dies now r) : (s.labelUnit now r).metric = BIG ∧
    (s.labelUnit now r).num = r.num + 1 ∧ (s.labelUnit now r).need_adv_now = true := by
  unfold labelUnit
  rw [if_pos h.1, if_pos h.2]
  exact ⟨rfl, rfl, rfl⟩

/-- A mark stays, and so does the metric `BIG`. -/
theorem labelUnit_marked (s : DSDVd N) (now : Nat) {r : RtUnit N} (hmetric : r.metric = BIG) (hmarked : r.need_adv_now = true) :
    (s.labelUnit now r).metric = BIG ∧ (s.labelUnit now r).need_adv_now = true := by
  unfold labelUnit
  split
  · split
    · exact ⟨rfl, rfl⟩
    · exact ⟨hmetric, hmarked⟩
  · exact ⟨hmetric, hmarked⟩

/-- A route that does not die is as it was. -/
theorem labelUnit_broken {r : RtUnit N} (h : r.expire_flag = true → r.metric = BIG)
    (hkept : ¬ s.Expires now r) :
    (s.labelUnit now r).expire_flag = true → (s.labelUnit now r).metric = BIG := by
  unfold labelUnit
  by_cases hage : age now r > s.expire_time_out_
  · rw [if_pos hage]
    by_cases hdead : r.dst = r.nextHop ∧ r.already_bcast = false
    · rw [if_pos hdead]
      exact fun _ => rfl
    · exact absurd ⟨hage, hdead⟩ hkept
  · rwa [if_neg hage]

/-- No more is to be told than there was and has died. -/
theorem countP_label_le (s : DSDVd N) (now : Nat) (rows : List (RtUnit N)) :
    (rows.map (s.labelUnit now)).countP (fun r => r.need_adv_now) ≤
      rows.countP (fun r => r.need_adv_now) + rows.countP fun r => s.Dies now r := by
  induction rows with
  | nil => exact Nat.zero_le _
  | cons r rows ih =>
    have hr : (if (s.labelUnit now r).need_adv_now = true then 1 else 0) ≤
        (if r.need_adv_now = true then 1 else 0) + if s.Dies now r then 1 else 0 := by
      by_cases hdies : s.Dies now r
      · rw [if_pos hdies]
        split <;> omega
      · have hsame : (s.labelUnit now r).need_adv_now = r.need_adv_now := by
          unfold labelUnit
          split
          · rw [if_neg fun hdead => hdies ⟨‹_›, hdead⟩]
          · rfl
        rw [hsame]
        exact Nat.le_add_right _ _
    simp only [List.map_cons, List.countP_cons, decide_eq_true_eq] at hr ⊢
    omega

/-- There is room in the advertisement for what is to be told. -/
theorem Busy.room (h : s.Busy) (now : Nat) :
    (s.labelled now).rows.tail.countP (fun r => r.need_adv_now) ≤ (s.labelled now).now_counter := by
  have hcounter := h.counter
  have htail := countP_label_le s now s.rows.tail
  have hdies : s.rows.tail.countP (fun r => s.Dies now r) ≤ s.rows.countP fun r => s.Dies now r :=
    (List.tail_sublist _).countP_le
  unfold labelled
  simp only [← List.map_tail]
  omega

omit [DecidableEq N] in
/-- An advertisement with enough room tells everything. -/
theorem sendAdvPktNow_room (h : s.rows.tail.countP (fun r => r.need_adv_now) ≤ s.now_counter)
    (junk : List (RtUnit N)) :
    ∃ advert, s.sendAdvPktNow junk = .ok ({ s with
        rows := s.rows.take 1 ++ s.rows.tail.map fun r => { r with need_adv_now := false } }, advert) ∧
      ∀ q ∈ s.rows, q.need_adv_now = true → q ∈ advert.units := by
  have hlen : (s.rows.take 1 ++ s.rows.tail.filter fun r => r.need_adv_now).length ≤ s.now_counter + 1 := by
    rw [List.length_append, ← List.countP_eq_length_filter, List.length_take]
    omega
  refine ⟨_, if_neg (Nat.not_lt.2 hlen), ?_⟩
  intro q hq hmarked
  refine List.mem_append_left _ ?_
  cases hrows : s.rows with
  | nil =>
    rw [hrows] at hq
    cases hq
  | cons r rest =>
    rw [hrows] at hq
    rcases List.mem_cons.1 hq with rfl | hq
    · exact List.mem_cons_self
    · exact List.mem_cons_of_mem _ (List.mem_filter.2 ⟨hq, hmarked⟩)

omit [DecidableEq N] in
/-- A route that has not expired stays in the table. -/
theorem mem_rebuilt {expired : Bool} {q : RtUnit N} (hq : q ∈ s.rows) (hexpire : q.expire_flag = false) :
    q ∈ (rebuilt expired s).rows := by
  cases expired with
  | false => exact hq
  | true => exact List.mem_filter.2 ⟨hq, by rw [hexpire]; rfl⟩

omit [DecidableEq N] in
/-- A table in which the loop has found nothing expired has only entries that are broken to be dropped. -/
theorem rebuilt_quiet {expired : Bool} (hcounter : s.now_counter = 0)
    (hunmarked : ∀ r ∈ s.rows.tail, r.need_adv_now = false)
    (hbroken : expired = false → ∀ r ∈ s.rows, r.expire_flag = true → r.metric = BIG) :
    (rebuilt expired s).Quiet := by
  cases expired with
  | false => exact ⟨hcounter, hunmarked, hbroken rfl⟩
  | true =>
    refine ⟨hcounter, ?_, ?_⟩
    · intro r hr
      refine hunmarked r ?_
      show r ∈ s.rows.tail
      have hr : r ∈ (s.rows.filter fun r => !r.expire_flag).tail := hr
      exact (List.filter_sublist.tail).mem hr
    · intro r hr hexpire
      have hkept := (List.mem_filter.1 hr).2
      rw [hexpire] at hkept
      cases hkept

/-- With room for all marked entries the loop ends well. What it marks is sent at once, and what it does
    not flag stays. -/
theorem Busy.selfCheck (h : s.Busy) (now : Nat) (junk : List (RtUnit N)) :
    ∃ t adverts, s.selfCheck now junk = .ok (t, adverts) ∧ t.Quiet ∧
      (∀ q ∈ (s.labelled now).rows, q.need_adv_now = true → (s.labelled now).now_counter > 0 →
        ∃ advert ∈ adverts, q ∈ advert.units) ∧
      ∀ q ∈ (s.labelled now).rows, q.expire_flag = false → ∃ p ∈ t.rows, p.dst = q.dst := by
  have hroom := h.room now
  have hbroken : (s.rows.any fun r => s.Expires now r) = false →
      ∀ r ∈ (s.labelled now).rows, r.expire_flag = true → r.metric = BIG := by
    intro hnone r' hr'
    obtain ⟨r, hr, rfl⟩ := List.mem_map.1 hr'
    refine labelUnit_broken (h.broken r hr) ?_
    simpa using List.any_eq_false.1 hnone r hr
  rw [selfCheck_eq]
  generalize s.labelled now = u at hroom hbroken ⊢
  generalize (s.rows.any fun r => s.Expires now r) = expired at hbroken ⊢
  by_cases hpos : u.now_counter > 0
  · obtain ⟨advert, hsend, hunits⟩ := sendAdvPktNow_room hroom junk
    rw [if_pos hpos, hsend]
    refine ⟨_, [advert], rfl, rebuilt_quiet rfl ?_ ?_, ?_, ?_⟩
    · intro r hr
      cases hrows : u.rows with
      | nil =>
        rw [hrows] at hr
        cases hr
      | cons c rest =>
        rw [hrows] at hr
        obtain ⟨q, -, rfl⟩ := List.mem_map.1 (show r ∈ rest.map _ from hr)
        rfl
    · intro hnone r hr
      rcases List.mem_append.1 hr with hr | hr
      · exact hbroken hnone r (List.mem_of_mem_take hr)
      · obtain ⟨q, hq, rfl⟩ := List.mem_map.1 hr
        exact hbroken hnone q (List.mem_of_mem_tail hq)
    · intro q hq hmarked _
      exact ⟨advert, List.mem_singleton_self _, hunits q hq hmarked⟩
    · intro q hq hexpire
      cases hrows : u.rows with
      | nil =>
        rw [hrows] at hq
        cases hq
      | cons c rest =>
        rw [hrows] at hq
        rcases List.mem_cons.1 hq with rfl | hq
        · exact ⟨q, mem_rebuilt List.mem_cons_self hexpire, rfl⟩
        · refine ⟨{ q with need_adv_now := false }, mem_rebuilt ?_ hexpire, rfl⟩
          exact List.mem_append_right _ (List.mem_map.2 ⟨q, hq, rfl⟩)
  · rw [if_neg hpos]
    refine ⟨_, [], rfl, rebuilt_quiet (Nat.eq_zero_of_not_pos hpos) ?_ hbroken, ?_, ?_⟩
    · intro r hr
      have hnone : u.rows.tail.countP (fun r => r.need_adv_now) = 0 := by omega
      simpa using List.countP_eq_zero.1 hnone r hr
    · exact fun _ _ _ hcounter => absurd hcounter hpos
    · exact fun q hq hexpire => ⟨q, mem_rebuilt hq hexpire, rfl⟩

/-! ## Runs -/

omit [DecidableEq N] in
/-- The node's own row is not to be told. -/
theorem Quiet.renew (h : s.Quiet) (now : Nat) : (s.renew now).Quiet := by
  cases hrows : s.rows with
  | nil =>
    have hrenewed : (s.renew now).rows = [] := by
      unfold DSDVd.renew
      rw [hrows]
      rfl
    refine ⟨h.counter, ?_, ?_⟩ <;>
    · rw [hrenewed]
      exact fun _ hr => absurd hr List.not_mem_nil
  | cons r rest =>
    have hrenewed := renew_rows hrows now
    refine ⟨h.counter, ?_, ?_⟩
    · rw [hrenewed]
      intro q hq
      exact h.unmarked q (by rw [hrows]; exact hq)
    · rw [hrenewed]
      intro q hq hexpire
      rcases List.mem_cons.1 hq with rfl | hq
      · cases hexpire
      · exact h.broken q (by rw [hrows]; exact List.mem_cons_of_mem _ hq) hexpire

/-- What is found out. -/
theorem Quiet.found (h : s.Quiet) (i : Input N) : (s.found i).Busy := by
  cases i with
  | advPkt now advert junk => exact h.busy.foldl now advert.from_ advert.units
  | timer now junk => exact (h.renew now).busy

theorem found_timeout (s : DSDVd N) (i : Input N) : (s.found i).expire_time_out_ = s.expire_time_out_ := by
  cases i with
  | advPkt now advert junk => exact foldl_update_timeout ..
  | timer now junk => rfl

/-- Where the loop finds an entry again. -/
theorem found_follows {r : RtUnit N} (hr : r ∈ s.rows)
    (hfirst : ∀ now junk, i = .timer now junk → ∀ q ∈ s.rows.head?, q = r → r.dst = s.mip) :
    Follows i.now (s.found i).rows r := by
  cases i with
  | advPkt now advert junk => exact Follows.foldl (Or.inl hr) advert.from_ advert.units
  | timer now junk =>
    cases hrows : s.rows with
    | nil =>
      rw [hrows] at hr
      cases hr
    | cons c rest =>
      have hrenewed := renew_rows hrows now
      unfold DSDVd.found
      rw [hrows] at hr
      rcases List.mem_cons.1 hr with rfl | hr
      · have hown := hfirst now junk rfl r (by rw [hrows]; rfl) rfl
        refine Or.inr (Or.inl ⟨_, by rw [hrenewed]; exact List.mem_cons_self, ?_, rfl, rfl⟩)
        exact hown.symm
      · exact Or.inl (by rw [hrenewed]; exact List.mem_cons_of_mem _ hr)

/-- **The invariant.** Between two steps nothing is to be told. -/
theorem Quiet.step {t : DSDVd N} (h : s.Quiet) (hstep : s.step i = .ok t) : t.Quiet := by
  obtain ⟨t', adverts, hcheck, hquiet, -⟩ := (h.found i).selfCheck i.now i.junk
  have hrows : s.rows ≠ [] ∨ s.step i = ((s.found i).selfCheck i.now i.junk).map Prod.fst := by
    cases i with
    | advPkt now advert junk => exact Or.inr rfl
    | timer now junk =>
      left
      intro hnil
      unfold DSDVd.step handle sendAdvPktRegular at hstep
      simp only [if_pos hnil] at hstep
      cases hstep
  rw [hrows.elim (step_eq i) id, hcheck] at hstep
  obtain rfl := Except.ok.inj hstep
  exact hquiet

/-- What the loop finds too old for the first time is announced, and nothing else of a neighbour goes. -/
theorem Quiet.announcesDeaths (h : s.Quiet) (hfirst : s.FirstDeaths i) : s.AnnouncesDeaths i := by
  obtain ⟨t, adverts, hcheck, -, hsent, hstays⟩ := (h.found i).selfCheck i.now i.junk
  have hannounce : ∀ {r : RtUnit N}, r ∈ (s.found i).rows → ((s.found i).labelUnit i.now r).need_adv_now = true →
      ((s.found i).labelled i.now).now_counter > 0 →
      s.Announced i fun u => u = (s.found i).labelUnit i.now r := by
    intro r hr hmarked hcounter
    obtain ⟨advert, hadvert, hu⟩ := hsent _ (List.mem_map_of_mem hr) hmarked hcounter
    exact ⟨t, adverts, hcheck, advert, hadvert, _, hu, rfl⟩
  have hdead : ∀ r ∈ (s.found i).rows, r.Neighbour → age i.now r > s.expire_time_out_ →
      s.Announced i fun u => u.dst = r.dst ∧ u.metric = BIG ∧ u.num = r.num + 1 := by
    intro r hr hneighbour hage
    have hdies : (s.found i).Dies i.now r :=
      ⟨by rwa [found_timeout], hneighbour.1, hfirst.1 r hr hneighbour hage⟩
    obtain ⟨hmetric, hnum, hmarked⟩ := labelUnit_dies hdies
    have hcounter : ((s.found i).labelled i.now).now_counter > 0 :=
      Nat.add_pos_right _ (List.countP_pos_iff.2 ⟨r, hr, decide_eq_true hdies⟩)
    obtain ⟨t', adverts', hcheck', advert, hadvert, u, hu, rfl⟩ := hannounce hr hmarked hcounter
    exact ⟨t', adverts', hcheck', advert, hadvert, _, hu, labelUnit_dst _ _ r, hmetric, hnum⟩
  refine ⟨hdead, ?_⟩
  intro r hr hneighbour
  have hstep : s.step i = .ok t := by
    rw [step_eq i (List.ne_nil_of_mem hr), hcheck]
    rfl
  have hstay : ∀ q ∈ (s.found i).rows, q.dst = r.dst → age i.now q ≤ s.expire_time_out_ →
      q.expire_flag = false → ∃ t, s.step i = .ok t ∧ ∃ q ∈ t.rows, q.dst = r.dst := by
    intro q hq hdst hage hexpire
    have hkept : (s.found i).labelUnit i.now q = q := labelUnit_young _ (by rwa [found_timeout])
    obtain ⟨p, hp, hpq⟩ := hstays _ (List.mem_map_of_mem hq) (hkept.symm ▸ hexpire)
    exact ⟨t, hstep, p, hp, by rw [hpq, hkept, hdst]⟩
  have hfollows : Follows i.now (s.found i).rows r := by
    refine found_follows hr ?_
    rintro now junk rfl q hq rfl
    exact hfirst.2 q hq hneighbour
  rcases hfollows with hr | ⟨q, hq, hdst, hnow, hexpire⟩ | ⟨q, hq, hdst, hmetric, hmarked⟩
  · by_cases hage : age i.now r > s.expire_time_out_
    · right
      obtain ⟨t', adverts', hcheck', advert, hadvert, u, hu, hdst, hmetric, -⟩ := hdead r hr hneighbour hage
      exact ⟨t', adverts', hcheck', advert, hadvert, u, hu, hdst, hmetric⟩
    · left
      refine hstay r hr rfl (Nat.le_of_not_lt hage) ?_
      by_contra hexpire
      have hbig := (h.found i).broken r hr (by simpa using hexpire)
      exact absurd hneighbour.2 (by rw [hbig]; exact Int.lt_irrefl _)
  · left
    refine hstay q hq hdst ?_ hexpire
    rw [age_self _ hnow]
    exact Nat.zero_le _
  · right
    have hcounter : ((s.found i).labelled i.now).now_counter > 0 := by
      have hroom := (h.found i).counter
      have hpos : 0 < (s.found i).rows.tail.countP fun r => r.need_adv_now :=
        List.countP_pos_iff.2 ⟨q, hq, hmarked⟩
      exact Nat.add_pos_left (Nat.lt_of_lt_of_le hpos hroom) _
    obtain ⟨hbig, hstill⟩ := labelUnit_marked (s.found i) i.now hmetric hmarked
    obtain ⟨t', adverts', hcheck', advert, hadvert, u, hu, rfl⟩ :=
      hannounce (List.mem_of_mem_tail hq) hstill hcounter
    exact ⟨t', adverts', hcheck', advert, hadvert, _, hu, (labelUnit_dst _ _ q).trans hdst, hbig⟩

/-- **Deaths.** In a run in which no neighbour dies again after a death that has been reported, and no
    entry of a neighbour comes first, every death is announced and no neighbour goes without. -/
theorem run_announcesDeaths (mip : N) (expire_time_out_ now : Nat) (inputs : List (Input N))
    (h : Run.Along step FirstDeaths (init mip expire_time_out_ now) inputs) :
    Run.Along step AnnouncesDeaths (init mip expire_time_out_ now) inputs :=
  h.of_inv (I := Quiet) (fun _ _ _ hs _ hstep => hs.step hstep)
    (fun _ _ hs hfirst => hs.announcesDeaths hfirst) (init_quiet mip _ _)

/-- A neighbour is heard and dies. -/
theorem run_announcesDeaths_neighbour :
    Run.Along step AnnouncesDeaths (init (0 : Fin 3) 10 0)
      [.advPkt 2 ⟨1, [ownUnit 1 2 2]⟩ [], .timer 9 [], .advPkt 15 ⟨2, [ownUnit 2 2 15]⟩ []] :=
  run_announcesDeaths _ _ _ _ (by decide)

/-- The neighbour 1 dies, comes back with a fresher number, and is then deleted without a word. -/
theorem second_death_silent :
    ∃ inputs : List (Input (Fin 3)), ¬ Run.Along step AnnouncesDeaths (init 0 10 0) inputs := by
  obtain ⟨before, hbefore⟩ : ∃ before : List (Input (Fin 3)), before =
      [.advPkt 2 ⟨1, [ownUnit 1 2 2]⟩ [], .timer 9 [], .advPkt 15 ⟨2, [ownUnit 2 2 15]⟩ [],
        .advPkt 16 ⟨1, [ownUnit 1 4 16]⟩ [], .timer 20 []] := ⟨_, rfl⟩
  obtain ⟨s, hs⟩ : ∃ s, Run.exec step (init 0 10 0) before = .ok s := by
    rw [hbefore]
    exact ⟨_, rfl⟩
  refine ⟨before ++ [.advPkt 29 ⟨2, [ownUnit 2 4 29]⟩ []], fun h => ?_⟩
  have hlast := (h.last hs).1
  rw [hbefore] at hs
  obtain rfl := Except.ok.inj hs
  obtain ⟨t, adverts, hcheck, advert, hadvert, -⟩ := hlast
    { ownUnit 1 4 16 with metric := 1, already_bcast := true } (by decide) (by decide) (by decide)
  obtain ⟨-, rfl⟩ := Prod.mk.inj (Except.ok.inj hcheck)
  exact absurd hadvert List.not_mem_nil

end DSDVd

end Dsdv
