import Nctuns.Engine.Timer

/-!
# Proofs: the timer list

`Listed s l` is the invariant of the list: the chain from `timerHead_` is `l`, sorted by timestamp,
and the events outside it have a null link. `schedule_timer` and `cancel_timer` keep it; everything
else about timers follows from these two.
-/

namespace Engine

open PtrChain

variable {τ : Type*} {s s' : Timers τ} {l pre post : List τ} {t x : τ}

/-- The timer list is `l`, in timestamp order, and the links of all other events are null. -/
structure Listed (s : Timers τ) (l : List τ) : Prop where
  chain : IsChain s.next_ep s.timerHead_ l
  sorted : l.Pairwise fun x y => s.ts x ≤ s.ts y
  null : ∀ t ∉ l, s.next_ep t = none

/-- Only the list changed from `s` to `s'`. -/
structure ListOnly (s s' : Timers τ) : Prop where
  obj : s'.obj = s.obj
  time : s'.currentTime_ = s.currentTime_

theorem ListOnly.ts (h : ListOnly s s') : s'.ts = s.ts := by
  unfold Timers.ts; rw [h.obj]

theorem new_listed (currentTime_ : Nat) (addr : τ → Nat) : Listed (Timers.new currentTime_ addr) [] :=
  ⟨rfl, List.Pairwise.nil, fun _ _ => rfl⟩

/-- The first timer of the list is due first. -/
theorem Listed.head_le (h : Listed s l) (hhead : s.timerHead_ = some t) :
    ∀ x ∈ l, s.ts t ≤ s.ts x := by
  obtain ⟨l', rfl, -⟩ := (hhead ▸ h.chain).eq_cons
  intro x hx
  rcases List.mem_cons.1 hx with rfl | hx
  · exact le_rfl
  · exact List.rel_of_pairwise_cons h.sorted hx

theorem Listed.head_eq_none_iff (h : Listed s l) : s.timerHead_ = none ↔ l = [] := by
  constructor
  · exact fun hnone => (hnone ▸ h.chain).eq_nil
  · rintro rfl; exact h.chain

/-- Placing `t` between `pre` and `post`: the new links make up a chain, and `t` fits in order. -/
theorem Listed.place (h : Listed s (pre ++ post)) (hs : ListOnly s s')
    (hchain : IsChain s'.next_ep s'.timerHead_ (pre ++ t :: post))
    (hnull : ∀ y ∉ pre ++ t :: post, s'.next_ep y = s.next_ep y)
    (hpre : ∀ x ∈ pre, s.ts x ≤ s.ts t) (hpost : ∀ x ∈ post, s.ts t ≤ s.ts x) :
    Listed s' (pre ++ t :: post) where
  chain := hchain
  sorted := by
    obtain ⟨h1, h2, h3⟩ := List.pairwise_append.1 h.sorted
    rw [hs.ts]
    refine List.pairwise_append.2 ⟨h1, List.pairwise_cons.2 ⟨hpost, h2⟩, fun x hx y hy => ?_⟩
    rcases List.mem_cons.1 hy with rfl | hy
    · exact hpre x hx
    · exact h3 x hx y hy
  null y hy := (hnull y hy).trans (h.null y fun hmem => hy (by
    rcases List.mem_append.1 hmem with hm | hm
    · exact List.mem_append_left _ hm
    · exact List.mem_append_right _ (List.mem_cons_of_mem _ hm)))

/-- Taking `t` out of the list, its link reset. -/
theorem Listed.remove (h : Listed s (pre ++ t :: post)) (hs : ListOnly s s')
    (hchain : IsChain s'.next_ep s'.timerHead_ (pre ++ post)) (ht : s'.next_ep t = none)
    (hnull : ∀ y ∉ pre ++ t :: post, s'.next_ep y = s.next_ep y) : Listed s' (pre ++ post) where
  chain := hchain
  sorted := by
    rw [hs.ts]
    exact h.sorted.sublist ((List.sublist_cons_self t post).append_left pre)
  null y hy := by
    by_cases hyt : y = t
    · rw [hyt]; exact ht
    · have hy' : y ∉ pre ++ t :: post := by
        simp only [List.mem_append, List.mem_cons] at hy ⊢
        tauto
      rw [hnull y hy']; exact h.null y hy'

/-- Taking the first event off the list, its link reset. -/
theorem Listed.remove_head (h : Listed s (t :: l)) (hs : ListOnly s s')
    (hchain : IsChain s'.next_ep s'.timerHead_ l) (ht : s'.next_ep t = none)
    (hnull : ∀ y ∉ t :: l, s'.next_ep y = s.next_ep y) : Listed s' l := by
  have h' : Listed s ([] ++ t :: l) := h
  exact h'.remove hs hchain ht hnull

variable [DecidableEq τ]

/-- Writing the members of a timer that is not in the list. -/
theorem Listed.setObj {o : TimerObj} (h : Listed s l) (ht : t ∉ l) : Listed (s.setObj t o) l where
  chain := h.chain
  sorted := h.sorted.imp_of_mem fun {x y} hx hy hxy => by
    have hne : ∀ z ∈ l, (s.setObj t o).ts z = s.ts z := by
      intro z hz
      have : z ≠ t := fun he => ht (he ▸ hz)
      simp [Timers.ts, Timers.setObj, Function.update_of_ne this]
    rw [hne x hx, hne y hy]; exact hxy
  null := h.null

/-- Writing the members of a timer but not the timestamp of its event. -/
theorem Listed.setObj_of_ts {o : TimerObj} (h : Listed s l) (ho : o.callout_event.timeStamp_ = s.ts t) :
    Listed (s.setObj t o) l where
  chain := h.chain
  sorted := by
    have hts : (s.setObj t o).ts = s.ts := by
      funext z
      by_cases hz : z = t
      · subst hz; simp [Timers.ts, Timers.setObj] at *; exact ho
      · simp [Timers.ts, Timers.setObj, Function.update_of_ne hz]
    rw [hts]; exact h.sorted
  null := h.null

/-! ## `schedule_timer` -/

/-- The loop of `schedule_timer` puts the event where the order asks for it. -/
theorem scheduleWalk_spec (pre : List τ) (fuel : Nat) {hptr : Option τ} (h : Listed s (pre ++ post))
    (hne : pre ++ post ≠ []) (ht : t ∉ pre ++ post) (hpre : ∀ x ∈ pre, s.ts x ≤ s.ts t)
    (hwalk : IsChain s.next_ep hptr post) (hf : post.length < fuel) :
    ∃ s' l', s.scheduleWalk t fuel pre.getLast? hptr = .ok s' ∧ ListOnly s s' ∧ Listed s' l' ∧
      l'.Perm (t :: (pre ++ post)) := by
  induction post generalizing pre fuel hptr with
  | nil =>
    obtain ⟨fuel, rfl⟩ : ∃ m, fuel = m + 1 := ⟨fuel - 1, by omega⟩
    obtain rfl : hptr = none := hwalk
    rw [List.append_nil] at ht hne ⊢
    obtain ⟨pre, x, rfl⟩ := (List.eq_nil_or_concat' pre).resolve_left hne
    have hres : s.scheduleWalk t (fuel + 1) (pre ++ [x]).getLast? none = .ok (s.link x (some t)) := by
      simp [Timers.scheduleWalk]
    refine ⟨_, _, hres, ⟨rfl, rfl⟩, h.place ⟨rfl, rfl⟩ ?_ ?_ hpre (by simp),
      List.perm_append_singleton t (pre ++ [x])⟩
    · have hsnoc := IsChain.snoc (by simpa using h.chain) ht (h.null t (by simpa using ht))
      simpa [Timers.link] using hsnoc
    · intro y hy
      have hyx : y ≠ x := by rintro rfl; simp at hy
      simp [Timers.link, Function.update_of_ne hyx]
  | cons u post ih =>
    obtain ⟨fuel, rfl⟩ : ∃ m, fuel = m + 1 := ⟨fuel - 1, by simp at hf; omega⟩
    obtain ⟨rfl, hrest⟩ := hwalk
    by_cases hlt : s.ts t < s.ts u
    · have hpost : ∀ x ∈ u :: post, s.ts t ≤ s.ts x := by
        intro x hx
        rcases List.mem_cons.1 hx with rfl | hx
        · omega
        · have := List.rel_of_pairwise_cons (List.pairwise_append.1 h.sorted).2.1 hx
          omega
      rcases List.eq_nil_or_concat' pre with rfl | ⟨pre, x, rfl⟩
      · have hres : s.scheduleWalk t (fuel + 1) ([] : List τ).getLast? (some u) =
            .ok { s.link t s.timerHead_ with timerHead_ := some t } := by
          simp [Timers.scheduleWalk, hlt]
        refine ⟨_, _, hres, ⟨rfl, rfl⟩, h.place ⟨rfl, rfl⟩ (h.chain.push ht) ?_ hpre hpost, .refl _⟩
        intro y hy
        have hyt : y ≠ t := by rintro rfl; simp at hy
        simp [Timers.link, Function.update_of_ne hyt]
      · have hres : s.scheduleWalk t (fuel + 1) (pre ++ [x]).getLast? (some u) =
            .ok ((s.link t (some u)).link x (some t)) := by
          simp [Timers.scheduleWalk, hlt]
        refine ⟨_, _, hres, ⟨rfl, rfl⟩, h.place ⟨rfl, rfl⟩ ?_ ?_ hpre hpost, List.perm_middle⟩
        · have hchain : IsChain s.next_ep s.timerHead_ (pre ++ x :: u :: post) := by
            simpa using h.chain
          have hx : s.next_ep x = some u := hchain.after.1
          have hins := hchain.insert_after (by simpa using ht)
          simpa [Timers.link, hx] using hins
        · intro y hy
          have hyx : y ≠ x := by rintro rfl; simp at hy
          have hyt : y ≠ t := by rintro rfl; simp at hy
          simp [Timers.link, Function.update_of_ne hyx, Function.update_of_ne hyt]
    · have hnext : s.next_ep u ≠ some t := by
        intro hn
        obtain ⟨l', rfl, -⟩ := (hn ▸ hrest).eq_cons
        simp at ht
      have hpre' : ∀ x ∈ pre ++ [u], s.ts x ≤ s.ts t := by
        intro x hx
        rcases List.mem_append.1 hx with hx | hx
        · exact hpre x hx
        · obtain rfl : x = u := by simpa using hx
          omega
      obtain ⟨s', l', hw, hs, hl, hp⟩ := ih (pre ++ [u]) fuel (by simpa using h) (by simp)
        (by simpa using ht) hpre' hrest (by simp at hf; omega)
      refine ⟨s', l', ?_, hs, hl, by simpa using hp⟩
      unfold Timers.scheduleWalk
      simpa [hlt, hnext] using hw

variable [Fintype τ]

/-- `schedule_timer` rejects an event of the past and puts any other one into the list. -/
theorem schedule_timer_spec (h : Listed s l) (ht : t ∉ l) :
    (s.ts t < s.currentTime_ → s.schedule_timer t = .ok (s, -1)) ∧
    (s.currentTime_ ≤ s.ts t → ∃ s' l', s.schedule_timer t = .ok (s', 1) ∧ ListOnly s s' ∧
      Listed s' l' ∧ l'.Perm (t :: l)) := by
  refine ⟨fun hlt => by simp [Timers.schedule_timer, hlt], fun hle => ?_⟩
  cases hhead : s.timerHead_ with
  | none =>
    obtain rfl := h.head_eq_none_iff.1 hhead
    have hres : s.schedule_timer t = .ok ({ s with timerHead_ := some t }, 1) := by
      simp [Timers.schedule_timer, Nat.not_lt.2 hle, hhead]
    exact ⟨_, [t], hres, ⟨rfl, rfl⟩, ⟨⟨rfl, h.null t ht⟩, by simp, fun y _ => h.null y (by simp)⟩, .refl _⟩
  | some u =>
    have hl : l ≠ [] := by
      intro hl
      simp [h.head_eq_none_iff.2 hl] at hhead
    obtain ⟨s', l', hw, hs, hl', hp⟩ := scheduleWalk_spec [] (Fintype.card τ + 1) h hl ht
      (by simp) h.chain (Nat.lt_succ_of_le h.chain.length_le_card)
    refine ⟨s', l', ?_, hs, hl', hp⟩
    have hw' : s.scheduleWalk t (Fintype.card τ + 1) none (some u) = .ok s' := by
      simpa [hhead] using hw
    simp [Timers.schedule_timer, Nat.not_lt.2 hle, hhead, hw']

/-! ## `cancel_timer` -/

omit [Fintype τ] in
/-- The loop of `cancel_timer` takes the event out if it is in the list. -/
theorem cancelWalk_spec (pre : List τ) (fuel : Nat) (h : Listed s (pre ++ x :: post)) (ht : t ∉ pre ++ [x])
    (hf : post.length < fuel) :
    ∃ s', s.cancelWalk t fuel x = .ok s' ∧ ListOnly s s' ∧ Listed s' (pre ++ x :: post.erase t) := by
  induction post generalizing pre x fuel with
  | nil =>
    obtain ⟨fuel, rfl⟩ : ∃ m, fuel = m + 1 := ⟨fuel - 1, by omega⟩
    have hx : s.next_ep x = none := h.chain.after
    exact ⟨s, by rw [Timers.cancelWalk, hx], ⟨rfl, rfl⟩, h⟩
  | cons d post ih =>
    obtain ⟨fuel, rfl⟩ : ∃ m, fuel = m + 1 := ⟨fuel - 1, by simp at hf; omega⟩
    have hx : s.next_ep x = some d := h.chain.after.1
    by_cases hd : d = t
    · subst hd
      have hres : s.cancelWalk d (fuel + 1) x =
          .ok ((s.link x (s.next_ep d)).link d none) := by
        rw [Timers.cancelWalk, hx]; simp
      refine ⟨_, hres, ⟨rfl, rfl⟩, ?_⟩
      rw [List.erase_cons_head]
      have h' : Listed s (pre ++ [x] ++ d :: post) := by simpa using h
      have hrem : Listed ((s.link x (s.next_ep d)).link d none) (pre ++ [x] ++ post) := h'.remove
        ⟨rfl, rfl⟩ (by simpa [Timers.link] using h.chain.remove_after) (by simp [Timers.link]) (by
          intro y hy
          have hyx : y ≠ x := by rintro rfl; simp at hy
          have hyd : y ≠ d := by rintro rfl; simp at hy
          simp [Timers.link, Function.update_of_ne hyx, Function.update_of_ne hyd])
      simpa using hrem
    · have htd : t ∉ pre ++ [x] ++ [d] := by
        simp only [List.mem_append, List.mem_singleton] at ht ⊢
        tauto
      obtain ⟨s', hw, hs, hl⟩ := ih (x := d) (pre ++ [x]) fuel (by simpa using h) htd
        (by simp at hf; omega)
      refine ⟨s', ?_, hs, ?_⟩
      · rw [Timers.cancelWalk, hx]; simpa [hd] using hw
      · rw [List.erase_cons_tail (by simpa using hd)]; simpa using hl

/-- `cancel_timer` takes the event out of the list if it is there. -/
theorem cancel_timer_spec (h : Listed s l) (t : τ) :
    ∃ s' ret, s.cancel_timer t = .ok (s', ret) ∧ ListOnly s s' ∧ Listed s' (l.erase t) := by
  cases hhead : s.timerHead_ with
  | none =>
    obtain rfl := h.head_eq_none_iff.1 hhead
    exact ⟨s, -1, by simp [Timers.cancel_timer, hhead], ⟨rfl, rfl⟩, h⟩
  | some u =>
    obtain ⟨l, rfl, hrest⟩ := (hhead ▸ h.chain).eq_cons
    by_cases hut : t = u
    · subst hut
      have hres : s.cancel_timer t = .ok ({ s with timerHead_ := s.next_ep t }.link t none, 1) := by
        simp [Timers.cancel_timer, hhead]
      refine ⟨_, 1, hres, ⟨rfl, rfl⟩, ?_⟩
      rw [List.erase_cons_head]
      refine h.remove_head ⟨rfl, rfl⟩ ?_ (by simp [Timers.link]) ?_
      · simpa [Timers.link] using IsChain.pop (hhead ▸ h.chain)
      · intro y hy
        have hyt : y ≠ t := by rintro rfl; simp at hy
        simp [Timers.link, Function.update_of_ne hyt]
    · obtain ⟨s', hw, hs, hl⟩ := cancelWalk_spec (x := u) [] (Fintype.card τ + 1) h
        (by simpa using hut) (by
          have := h.chain.length_le_card
          simp at this; omega)
      refine ⟨s', 1, ?_, hs, ?_⟩
      · simp [Timers.cancel_timer, hhead, hut, hw]
      · rw [List.erase_cons_tail (by simpa using Ne.symm hut)]; exact hl

/-! ## Which timers are in the list -/

omit [DecidableEq τ] [Fintype τ] in
/-- The timer list is in order and consists of the timers in `m`. -/
def Holds (s : Timers τ) (m : Set τ) : Prop := ∃ l, Listed s l ∧ ∀ x, x ∈ l ↔ x ∈ m

omit [Fintype τ] in
theorem Holds.setObj {m : Set τ} {o : TimerObj} (h : Holds s m)
    (ho : t ∈ m → o.callout_event.timeStamp_ = s.ts t) : Holds (s.setObj t o) m := by
  obtain ⟨l, hl, hm⟩ := h
  by_cases ht : t ∈ m
  · exact ⟨l, hl.setObj_of_ts (ho ht), hm⟩
  · exact ⟨l, hl.setObj fun hmem => ht ((hm t).1 hmem), hm⟩

/-- Setting up an event outside the list and scheduling it. -/
theorem Holds.schedule {m : Set τ} {o : TimerObj} (h : Holds s m) (ht : t ∉ m) :
    ∃ s' ret, (s.setObj t o).schedule_timer t = .ok (s', ret) ∧ ListOnly (s.setObj t o) s' ∧
      Holds s' {x | x ∈ m ∨ (x = t ∧ s.currentTime_ ≤ o.callout_event.timeStamp_)} := by
  obtain ⟨l, hl, hm⟩ := h
  have htl : t ∉ l := fun hmem => ht ((hm t).1 hmem)
  have hts : (s.setObj t o).ts t = o.callout_event.timeStamp_ := by simp [Timers.ts, Timers.setObj]
  obtain ⟨hpast, hdue⟩ := schedule_timer_spec (hl.setObj (o := o) htl) htl
  rw [hts] at hpast hdue
  by_cases hle : s.currentTime_ ≤ o.callout_event.timeStamp_
  · obtain ⟨s', l', hres, hs, hl', hp⟩ := hdue hle
    refine ⟨s', 1, hres, hs, l', hl', fun x => ?_⟩
    rw [hp.mem_iff, List.mem_cons, hm x, or_comm]
    simp [hle]
  · refine ⟨_, -1, hpast (Nat.lt_of_not_le hle), ⟨rfl, rfl⟩, l, hl.setObj htl, fun x => ?_⟩
    rw [hm x]; simp [hle]

theorem Holds.cancel_timer {m : Set τ} (h : Holds s m) (t : τ) :
    ∃ s' ret, s.cancel_timer t = .ok (s', ret) ∧ ListOnly s s' ∧ Holds s' {x | x ∈ m ∧ x ≠ t} := by
  obtain ⟨l, hl, hm⟩ := h
  obtain ⟨s', ret, hres, hs, hl'⟩ := cancel_timer_spec hl t
  refine ⟨s', ret, hres, hs, _, hl', fun x => ?_⟩
  rw [hl.chain.nodup.mem_erase_iff, hm x, and_comm]; rfl

/-! ## `timerObj` -/

theorem cancel_spec {m : Set τ} (h : Holds s m) (t : τ) :
    ∃ s', s.cancel t = .ok s' ∧ Holds s' {x | x ∈ m ∧ x ≠ t} ∧ s'.currentTime_ = s.currentTime_ ∧
      s'.obj = (s.init t).obj := by
  obtain ⟨s', ret, hres, hs, hh⟩ := (h.setObj (t := t)
    (o := { s.obj t with busy_ := false, paused_ := false, rtime_ := 0 }) fun _ => rfl).cancel_timer t
  exact ⟨s', by rw [Timers.cancel, Timers.init, hres]; rfl, hh, hs.time, hs.obj⟩

theorem pause_spec {m : Set τ} (h : Holds s m) (t : τ) :
    ∃ s' rtime, s.pause t = .ok s' ∧ Holds s' {x | x ∈ m ∧ x ≠ t} ∧
      s'.currentTime_ = s.currentTime_ ∧
      s'.obj = Function.update s.obj t { s.obj t with paused_ := true, rtime_ := rtime } := by
  obtain ⟨s', ret, hres, hs, hh⟩ := (h.setObj (t := t) (o := { s.obj t with
    paused_ := true
    rtime_ := if s.currentTime_ > s.ts t then 0 else s.ts t - s.currentTime_ })
      fun _ => rfl).cancel_timer t
  exact ⟨s', _, by rw [Timers.pause, hres]; rfl, hh, hs.time, hs.obj⟩

theorem startIdle_spec {m : Set τ} (h : Holds s m) (ht : t ∉ m) (time pero : Nat) :
    ((s.currentTime_ + time) % 2 ^ 64 < s.currentTime_ ∧
      s.startIdle t time pero = .error .startWraps) ∨
    (s.currentTime_ ≤ (s.currentTime_ + time) % 2 ^ 64 ∧
      ∃ s', s.startIdle t time pero = .ok s' ∧ Holds s' {x | x ∈ m ∨ x = t} ∧
        s'.currentTime_ = s.currentTime_ ∧
        s'.obj = Function.update s.obj t
          ((s.obj t).started ((s.currentTime_ + time) % 2 ^ 64) pero)) := by
  unfold Timers.startIdle
  generalize (s.currentTime_ + time) % 2 ^ 64 = expire
  by_cases hw : expire < s.currentTime_
  · exact .inl ⟨hw, by simp [hw]⟩
  · obtain ⟨s', ret, hres, hs, hh⟩ := h.schedule ht (o := (s.obj t).started expire pero)
    refine .inr ⟨by omega, s', by simp [hw, hres], ?_, hs.time, hs.obj⟩
    have hts : s.currentTime_ ≤ ((s.obj t).started expire pero).callout_event.timeStamp_ :=
      Nat.le_of_not_lt hw
    simpa [hts] using hh

/-- `start` puts the timer into the list, once, if only busy timers were there. -/
theorem start_spec {m : Set τ} (h : Holds s m) (hbusy : t ∈ m → (s.obj t).busy_ = true)
    (time pero : Nat) :
    ((s.currentTime_ + time) % 2 ^ 64 < s.currentTime_ ∧ s.start t time pero = .error .startWraps) ∨
    (s.currentTime_ ≤ (s.currentTime_ + time) % 2 ^ 64 ∧
      ∃ s', s.start t time pero = .ok s' ∧ Holds s' {x | x ∈ m ∨ x = t} ∧
        s'.currentTime_ = s.currentTime_ ∧
        s'.obj = Function.update s.obj t
          ((s.obj t).started ((s.currentTime_ + time) % 2 ^ 64) pero)) := by
  unfold Timers.start
  cases hb : (s.obj t).busy_ with
  | false => exact startIdle_spec h (fun hmem => by simp [hbusy hmem] at hb) time pero
  | true =>
    obtain ⟨s₁, ret, hres, hs, hh⟩ := h.cancel_timer t
    have hset : {x | (x ∈ m ∧ x ≠ t) ∨ x = t} = {x | x ∈ m ∨ x = t} := by
      ext x; change (_ ∧ _) ∨ _ ↔ _ ∨ _; tauto
    have := startIdle_spec hh (fun hmem => hmem.2 rfl) time pero
    simpa [hres, hs.time, hs.obj, hset] using this

omit [Fintype τ] in
theorem dequeue_timer_spec {m : Set τ} (h : Holds s m) (hhead : s.timerHead_ = some t) :
    t ∈ m ∧ (∀ x ∈ m, s.ts t ≤ s.ts x) ∧
      ∃ s', s.dequeue_timer = (some t, s') ∧ ListOnly s s' ∧ Holds s' {x | x ∈ m ∧ x ≠ t} := by
  obtain ⟨l, hl, hm⟩ := h
  obtain ⟨l, rfl, -⟩ := (hhead ▸ hl.chain).eq_cons
  have hchain : IsChain s.next_ep (some t) (t :: l) := hhead ▸ hl.chain
  refine ⟨(hm t).1 (by simp), fun x hx => hl.head_le hhead x ((hm x).2 hx),
    { s with timerHead_ := s.next_ep t }.link t none, by rw [Timers.dequeue_timer, hhead], ⟨rfl, rfl⟩,
    l, hl.remove_head ⟨rfl, rfl⟩ ?_ (by simp [Timers.link]) ?_, fun x => ?_⟩
  · simpa [Timers.link] using hchain.pop
  · intro y hy
    have hyt : y ≠ t := by rintro rfl; simp at hy
    simp [Timers.link, Function.update_of_ne hyt]
  · have ht : t ∉ l := (List.nodup_cons.1 hchain.nodup).1
    change _ ↔ x ∈ m ∧ x ≠ t
    rw [← hm x, List.mem_cons]
    exact ⟨fun hx => ⟨.inr hx, fun he => ht (he ▸ hx)⟩, fun hx => hx.1.resolve_left hx.2⟩

omit [DecidableEq τ] [Fintype τ] in
theorem Holds.setTime {m : Set τ} (h : Holds s m) (now : Nat) :
    Holds { s with currentTime_ := now } m := by
  obtain ⟨l, hl, hm⟩ := h
  exact ⟨l, ⟨hl.chain, hl.sorted, hl.null⟩, hm⟩

/-- A one-shot timer is reset; a periodic one enters the list unless its next timestamp is past. -/
theorem rearm_spec {m : Set τ} (h : Holds s m) (ht : t ∉ m)
    (hflag : (s.obj t).callout_event.flag = .DEFAULT) :
    ((s.obj t).callout_event.perio_ = 0 ∧ s.rearm t = .ok (s.init t) ∧ Holds (s.init t) m) ∨
    (0 < (s.obj t).callout_event.perio_ ∧ ∃ s', s.rearm t = .ok s' ∧
      Holds s' {x | x ∈ m ∨
        (x = t ∧ s.currentTime_ ≤ (s.obj t).nextPeriod.callout_event.timeStamp_)} ∧
      s'.currentTime_ = s.currentTime_ ∧
      s'.obj = Function.update s.obj t (s.obj t).nextPeriod) := by
  rcases Nat.eq_zero_or_pos (s.obj t).callout_event.perio_ with hp | hp
  · exact .inl ⟨hp, by simp [Timers.rearm, hflag, hp], h.setObj fun _ => rfl⟩
  · obtain ⟨s', ret, hres, hs, hh⟩ := h.schedule ht (o := (s.obj t).nextPeriod)
    exact .inr ⟨hp, s', by simp [Timers.rearm, hflag, hp, hres], hh, hs.time, hs.obj⟩

/-- `deqtimer` takes the first timer, which is due no later than the others, and goes on with
    `rearm` at its time. -/
theorem deqtimer_spec {m : Set τ} (h : Holds s m) (hhead : s.timerHead_ = some t) :
    t ∈ m ∧ (∀ x ∈ m, s.ts t ≤ s.ts x) ∧
    ((s.ts t < s.currentTime_ ∧ s.deqtimer = .error .missedTimer) ∨
    (s.currentTime_ ≤ s.ts t ∧ ∃ s₁, s.deqtimer = Prod.mk t <$> s₁.rearm t ∧
      Holds s₁ {x | x ∈ m ∧ x ≠ t} ∧ s₁.obj = s.obj ∧ s₁.currentTime_ = s.ts t)) := by
  obtain ⟨ht, hmin, s₁, hres, hs, hh⟩ := dequeue_timer_spec h hhead
  refine ⟨ht, hmin, ?_⟩
  by_cases hlt : s.ts t < s.currentTime_
  · exact .inl ⟨hlt, by simp [Timers.deqtimer, hres, hs.ts, hs.time, hlt]⟩
  · refine .inr ⟨by omega, { s₁ with currentTime_ := s.ts t }, ?_, hh.setTime _, hs.obj, rfl⟩
    simp [Timers.deqtimer, hres, hs.ts, hs.time, hlt]

/-! ## Pause and resume -/

omit [Fintype τ] in
/-- Writing the members of `t` moves no other timer in or out of the running ones. -/
theorem running_update {o : TimerObj} (hobj : s'.obj = Function.update s.obj t o) :
    s'.running = {x | (x ∈ s.running ∧ x ≠ t) ∨ (x = t ∧ o.busy_ = true ∧ o.paused_ = false)} := by
  ext x
  by_cases hx : x = t
  · subst hx; simp [Timers.running, hobj]
  · simp [Timers.running, hobj, hx]

omit [Fintype τ] in
theorem flag_update {o : TimerObj} (hobj : s'.obj = Function.update s.obj t o)
    (hflag : ∀ x, (s.obj x).callout_event.flag = .DEFAULT) (ho : o.callout_event.flag = .DEFAULT) :
    ∀ x, (s'.obj x).callout_event.flag = .DEFAULT := by
  intro x
  by_cases hx : x = t
  · subst hx; simpa [hobj] using ho
  · simpa [hobj, hx] using hflag x

/-- The list is in order and holds the running timers, whose events have no other flag. -/
structure Intact (s : Timers τ) : Prop where
  holds : Holds s s.running
  flag : ∀ t, (s.obj t).callout_event.flag = .DEFAULT

omit [DecidableEq τ] [Fintype τ] in
theorem Intact.listIntact (h : Intact s) : ListIntact s := by
  obtain ⟨l, hl, hm⟩ := h.holds
  exact ⟨l, hl.chain, hl.chain.nodup, hl.sorted, hm⟩

omit [DecidableEq τ] [Fintype τ] in
/-- The list determines which timers are in it. -/
theorem ListIntact.eq_running {m : Set τ} (h : ListIntact s) (hm : Holds s m) : m = s.running := by
  obtain ⟨l, hl, -, -, hrun⟩ := h
  obtain ⟨l', hl', hm⟩ := hm
  obtain rfl := hl.unique hl'.chain
  ext x; exact (hm x).symm.trans (hrun x)

/-- A paused timer that is resumed with the members `o`. -/
theorem resumed_spec {o : TimerObj} (h : Intact s) (hpaused : (s.obj t).paused_ = true)
    (hbusy : o.busy_ = (s.obj t).busy_) (ho : o.paused_ = false)
    (hflag : o.callout_event.flag = (s.obj t).callout_event.flag) :
    ∃ s' m, Prod.fst <$> (s.setObj t o).schedule_timer t = .ok s' ∧ Holds s' m ∧
      (∀ x, (s'.obj x).callout_event.flag = .DEFAULT) ∧
      (m = s'.running ↔
        ((s.obj t).busy_ = true ↔ s.currentTime_ ≤ o.callout_event.timeStamp_)) := by
  have ht : t ∉ s.running := by
    intro hrun
    simp [Timers.running, hpaused] at hrun
  obtain ⟨s', ret, hres, hs, hh⟩ := h.holds.schedule ht (o := o)
  refine ⟨s', _, by rw [hres]; rfl, hh, flag_update hs.obj h.flag (by rw [hflag, h.flag t]), ?_⟩
  rw [running_update hs.obj, ho, hbusy]
  constructor
  · intro heq
    have := Set.ext_iff.1 heq t
    simpa [ht, iff_comm] using this
  · intro hiff
    ext x
    by_cases hx : x = t
    · subst hx; simp [ht, hiff]
    · simp [hx]

/-- What one call does to intact timers. It ends in a list that is `m`, and `m` is the running timers
    exactly if the call returns its timer to the list as `ReturnsToList` asks. -/
theorem call_cases {c : TimerCall τ} (h : Intact s) (hD : ResumesPaused s c) :
    (∃ e, s.call c = .error e ∧ ReturnsToList s c) ∨
    ∃ s' m, s.call c = .ok s' ∧ Holds s' m ∧ (∀ x, (s'.obj x).callout_event.flag = .DEFAULT) ∧
      (m = s'.running ↔ ReturnsToList s c) := by
  cases c with
  | start t time pero =>
    rcases start_spec (t := t) h.holds (fun hrun => hrun.1) time pero with ⟨-, hres⟩ | ⟨-, s', hres, hh, -, hobj⟩
    · exact .inl ⟨_, hres, trivial⟩
    · refine .inr ⟨s', _, hres, hh, flag_update hobj h.flag (h.flag t), iff_of_true ?_ trivial⟩
      rw [running_update hobj]
      ext x
      by_cases hx : x = t <;> simp [hx, TimerObj.started]
  | cancel t =>
    obtain ⟨s', hres, hh, -, hobj⟩ := cancel_spec h.holds t
    refine .inr ⟨s', _, hres, hh, flag_update hobj h.flag (h.flag t), iff_of_true ?_ trivial⟩
    rw [running_update hobj]
    ext x
    by_cases hx : x = t <;> simp [hx]
  | pause t =>
    obtain ⟨s', rtime, hres, hh, -, hobj⟩ := pause_spec h.holds t
    refine .inr ⟨s', _, hres, hh, flag_update hobj h.flag (h.flag t), iff_of_true ?_ trivial⟩
    rw [running_update hobj]
    ext x
    by_cases hx : x = t <;> simp [hx]
  | resumeBy t time => exact .inr (resumed_spec h hD rfl rfl rfl)
  | resume t => exact .inr (resumed_spec h hD rfl rfl rfl)
  | deqheap now =>
    by_cases hlt : now < s.currentTime_
    · exact .inl ⟨.missedEvent, by simp [Timers.call, hlt], trivial⟩
    · exact .inr ⟨_, s.running, by simp only [Timers.call, if_neg hlt], h.holds.setTime now, h.flag,
        iff_of_true rfl trivial⟩
  | deqtimer =>
    cases hhead : s.timerHead_ with
    | none =>
      refine .inl ⟨.nullDeref, by simp [Timers.call, Timers.deqtimer, Timers.dequeue_timer, hhead], ?_⟩
      simp [ReturnsToList, hhead]
    | some t =>
      obtain ⟨ht, -, ⟨hlt, hres⟩ | ⟨hle, s₁, hres, hh, hobj₁, htime⟩⟩ := deqtimer_spec h.holds hhead
      · refine .inl ⟨_, by rw [Timers.call, hres]; rfl, ?_⟩
        simp only [ReturnsToList, hhead, Option.some.injEq]
        rintro _ rfl; omega
      · have hflag₁ : ∀ x, (s₁.obj x).callout_event.flag = .DEFAULT := by rw [hobj₁]; exact h.flag
        have hcall {s₂} (hr : s₁.rearm t = .ok s₂) : s.call .deqtimer = .ok s₂ := by
          rw [Timers.call, hres, hr]; rfl
        have hne : ¬ (t ∈ s.running ∧ t ≠ t) := fun hm => hm.2 rfl
        have hrun₁ : s₁.running = s.running := by unfold Timers.running; rw [hobj₁]
        rcases rearm_spec hh hne (hflag₁ t) with ⟨hp, hr, hh'⟩ | ⟨hp, s', hr, hh', -, hobj⟩
        · refine .inr ⟨_, _, hcall hr, hh', flag_update (o := { s₁.obj t with
            busy_ := false, paused_ := false, rtime_ := 0 }) rfl hflag₁ (hflag₁ t), iff_of_true ?_ ?_⟩
          · have hobj : (s₁.init t).obj = Function.update s₁.obj t { s₁.obj t with
                busy_ := false, paused_ := false, rtime_ := 0 } := rfl
            rw [running_update hobj, hrun₁]
            ext x; simp
          · simp only [ReturnsToList, hhead, Option.some.injEq]
            rintro _ rfl; rw [hobj₁] at hp; omega
        · refine .inr ⟨s', _, hcall hr, hh', flag_update hobj hflag₁ (hflag₁ t), ?_⟩
          have hts : (s₁.obj t).nextPeriod.callout_event.timeStamp_ =
              (s.ts t + (s.obj t).callout_event.perio_) % 2 ^ 64 := by rw [hobj₁]; rfl
          have hret : ReturnsToList s .deqtimer ↔
              s.ts t ≤ (s.ts t + (s.obj t).callout_event.perio_) % 2 ^ 64 := by
            simp only [ReturnsToList, hhead, Option.some.injEq]
            rw [hobj₁] at hp
            exact ⟨fun hr => hr t rfl hp hle, fun hr _ hu _ _ => hu ▸ hr⟩
          rw [running_update hobj, hret, hts, htime, hrun₁]
          generalize (s.ts t + (s.obj t).callout_event.perio_) % 2 ^ 64 = due
          have hbusy : (s₁.obj t).nextPeriod.busy_ = true ∧ (s₁.obj t).nextPeriod.paused_ = false := by
            rw [hobj₁]; exact ht
          constructor
          · intro heq
            have := Set.ext_iff.1 heq t
            simpa [hbusy] using this
          · intro hle'
            ext x
            simp [hbusy, hle']

/-- **The timer list.** In a run of calls that resumes only paused timers, the list stays acyclic,
    sorted and equal to the running timers exactly if every call returns its timer to the list as
    `ReturnsToList` asks. -/
theorem run_listIntact_iff (now : Nat) (addr : τ → Nat) (calls : List (TimerCall τ))
    (hD : Run.Along Timers.call ResumesPaused (Timers.new now addr) calls) :
    Run.Always Timers.call ListIntact (Timers.new now addr) calls ↔
      Run.Along Timers.call ReturnsToList (Timers.new now addr) calls := by
  refine Run.always_iff_along (I := Intact) (fun s h => h.listIntact) ?_ ?_ ?_ ?_ hD
  · intro s c s' h hD hok hC
    obtain ⟨e, herr, -⟩ | ⟨s₁, m, hok', hh, hflag, hiff⟩ := call_cases h hD
    · simp [hok] at herr
    · obtain rfl : s' = s₁ := Except.ok.inj (hok.symm.trans hok')
      exact ⟨hiff.2 hC ▸ hh, hflag⟩
  · intro s c s' h hD hok hP
    obtain ⟨e, herr, -⟩ | ⟨s₁, m, hok', hh, -, hiff⟩ := call_cases h hD
    · simp [hok] at herr
    · obtain rfl : s' = s₁ := Except.ok.inj (hok.symm.trans hok')
      exact hiff.1 (hP.eq_running hh)
  · intro s c e h hD herr
    obtain ⟨_, -, hC⟩ | ⟨s₁, m, hok, -, -, -⟩ := call_cases h hD
    · exact hC
    · simp [hok] at herr
  · refine ⟨⟨[], new_listed now addr, fun x => ?_⟩, fun _ => rfl⟩
    simp [Timers.running, Timers.new, TimerObj.new]

/-- A started timer that is paused and resumed is back in the list; the run ends with its expiry. -/
theorem run_listIntact_iff_resumed :
    let calls : List (TimerCall (Fin 2)) := [.start 0 10 0, .deqheap 4, .pause 0, .start 1 1 3,
      .deqtimer, .resume 0, .deqtimer, .deqtimer]
    Run.Always Timers.call ListIntact (Timers.new 0 fun t => t.val) calls :=
  (run_listIntact_iff 0 _ _ (by decide)).2 (by decide)

/-- A timer that is paused while idle enters the list when it is resumed, and a second time when it
    is started: its event is then linked to itself. -/
theorem resume_idle_makes_cycle :
    ¬ ∀ calls : List (TimerCall (Fin 1)),
      Run.Along Timers.call ResumesPaused (Timers.new 0 fun t => t.val) calls →
        Run.Always Timers.call ListIntact (Timers.new 0 fun t => t.val) calls := by
  intro h
  have hrun := h [.pause 0, .resume 0, .start 0 5 0] (by decide)
  obtain ⟨l, hl, -⟩ := (((hrun.2 _ rfl).2 _ rfl).2 _ rfl)
  exact PtrChain.not_isChain_of_self_loop (by decide) hl

end Engine
