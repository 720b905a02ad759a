import Nctuns.Engine.Proofs.TimerProofs
import Nctuns.Engine.TimerAccount

/-!
# Timers expire when their time is up

A timer that is not paused while it is paused, unless at the same clock, is due when the time it has not
been paused comes to what it was granted.
-/

namespace Engine

open PtrChain

variable {τ : Type*} {s s' : Timers τ} {t u : τ}

/-! ## What a call changes besides the list -/

theorem ListOnly.refl (s : Timers τ) : ListOnly s s := ⟨rfl, rfl⟩

/-- The pair behind a first component. -/
theorem fst_map_eq_ok {α : Type*} {x : Except Halt (α × Int)} {a : α} (h : Prod.fst <$> x = .ok a) :
    ∃ b, x = .ok (a, b) := by
  cases x with
  | error e => cases h
  | ok p =>
    obtain ⟨a', b⟩ := p
    obtain rfl : a' = a := Except.ok.inj h
    exact ⟨b, rfl⟩

variable [DecidableEq τ]

/-- The walk for the place changes the list only. -/
theorem scheduleWalk_listOnly (fuel : Nat) {tptr hptr : Option τ}
    (h : s.scheduleWalk t fuel tptr hptr = .ok s') : ListOnly s s' := by
  induction fuel generalizing tptr hptr with
  | zero => cases h
  | succ fuel ih =>
    unfold Timers.scheduleWalk at h
    cases hptr with
    | none =>
      cases tptr with
      | none => cases h
      | some p =>
        rw [← Except.ok.inj h]
        exact ⟨rfl, rfl⟩
    | some q =>
      dsimp only at h
      split_ifs at h
      · cases tptr with
        | none =>
          rw [← Except.ok.inj h]
          exact ⟨rfl, rfl⟩
        | some p =>
          rw [← Except.ok.inj h]
          exact ⟨rfl, rfl⟩
      · exact ih h

/-- The walk for the timer changes the list only. -/
theorem cancelWalk_listOnly (fuel : Nat) {d : τ} (h : s.cancelWalk t fuel d = .ok s') : ListOnly s s' := by
  induction fuel generalizing d with
  | zero => cases h
  | succ fuel ih =>
    unfold Timers.cancelWalk at h
    cases hnext : s.next_ep d with
    | none =>
      rw [hnext] at h
      rw [← Except.ok.inj h]
      exact ListOnly.refl s
    | some e =>
      rw [hnext] at h
      dsimp only at h
      split_ifs at h
      · rw [← Except.ok.inj h]
        exact ⟨rfl, rfl⟩
      · exact ih h

variable [Fintype τ]

/-- Scheduling changes the list only. -/
theorem schedule_timer_listOnly {ret : Int} (h : s.schedule_timer t = .ok (s', ret)) : ListOnly s s' := by
  unfold Timers.schedule_timer at h
  split_ifs at h
  · rw [← (Prod.mk.inj (Except.ok.inj h)).1]
    exact ListOnly.refl s
  · cases hhead : s.timerHead_ with
    | none =>
      rw [hhead] at h
      rw [← (Prod.mk.inj (Except.ok.inj h)).1]
      exact ⟨rfl, rfl⟩
    | some q =>
      rw [hhead] at h
      dsimp only at h
      cases hwalk : s.scheduleWalk t (Fintype.card τ + 1) none (some q) with
      | error e =>
        rw [hwalk] at h
        cases h
      | ok s₁ =>
        rw [hwalk] at h
        rw [← (Prod.mk.inj (Except.ok.inj h)).1]
        exact scheduleWalk_listOnly _ hwalk

/-- Cancelling from the list changes the list only. -/
theorem cancel_timer_listOnly {ret : Int} (h : s.cancel_timer t = .ok (s', ret)) : ListOnly s s' := by
  unfold Timers.cancel_timer at h
  cases hhead : s.timerHead_ with
  | none =>
    rw [hhead] at h
    rw [← (Prod.mk.inj (Except.ok.inj h)).1]
    exact ListOnly.refl s
  | some q =>
    rw [hhead] at h
    dsimp only at h
    split_ifs at h
    · rw [← (Prod.mk.inj (Except.ok.inj h)).1]
      exact ⟨rfl, rfl⟩
    · cases hwalk : s.cancelWalk t (Fintype.card τ + 1) q with
      | error e =>
        rw [hwalk] at h
        cases h
      | ok s₁ =>
        rw [hwalk] at h
        rw [← (Prod.mk.inj (Except.ok.inj h)).1]
        exact cancelWalk_listOnly _ hwalk

/-- One timer has the members `o`, and the clock stands. -/
structure Sets (s s' : Timers τ) (u : τ) (o : TimerObj) : Prop where
  obj : s'.obj = Function.update s.obj u o
  time : s'.currentTime_ = s.currentTime_

omit [Fintype τ] in
theorem ListOnly.sets {o : TimerObj} (h : ListOnly (s.setObj u o) s') : Sets s s' u o := ⟨h.obj, h.time⟩

/-- The timer after `cancel`. -/
theorem cancel_sets (h : s.cancel u = .ok s') :
    Sets s s' u { s.obj u with busy_ := false, paused_ := false, rtime_ := 0 } := by
  obtain ⟨ret, hcancel⟩ := fst_map_eq_ok h
  exact (cancel_timer_listOnly hcancel).sets

/-- The timer after `pause`. -/
theorem pause_sets (h : s.pause u = .ok s') :
    Sets s s' u { s.obj u with paused_ := true, rtime_ := s.ts u - s.currentTime_ } := by
  obtain ⟨ret, hcancel⟩ := fst_map_eq_ok h
  have hsets := (cancel_timer_listOnly hcancel).sets
  have hrtime : (if s.currentTime_ > s.ts u then 0 else s.ts u - s.currentTime_) = s.ts u - s.currentTime_ := by
    split_ifs <;> omega
  rwa [hrtime] at hsets

/-- The timer after a resumption with a given time. -/
theorem resumeBy_sets {time : Nat} (h : Prod.fst <$> s.resumeBy u time = .ok s') :
    Sets s s' u { s.obj u with
      paused_ := false
      callout_event := { (s.obj u).callout_event with
        timeStamp_ := (s.currentTime_ + time + (s.obj u).rtime_) % 2 ^ 64 }
      rtime_ := 0 } := by
  obtain ⟨ret, hschedule⟩ := fst_map_eq_ok h
  exact (schedule_timer_listOnly hschedule).sets

/-- The timer after `resume`. -/
theorem resume_sets (h : Prod.fst <$> s.resume u = .ok s') :
    Sets s s' u { s.obj u with
      paused_ := false
      callout_event := { (s.obj u).callout_event with
        timeStamp_ := (s.currentTime_ + (s.obj u).rtime_) % 2 ^ 64 } } := by
  obtain ⟨ret, hschedule⟩ := fst_map_eq_ok h
  exact (schedule_timer_listOnly hschedule).sets

/-- The timer after the start of an idle one. -/
theorem startIdle_sets {time pero : Nat} (h : s.startIdle u time pero = .ok s') :
    Sets s s' u ((s.obj u).started ((s.currentTime_ + time) % 2 ^ 64) pero) := by
  unfold Timers.startIdle at h
  dsimp only at h
  split_ifs at h
  obtain ⟨ret, hschedule⟩ := fst_map_eq_ok h
  exact (schedule_timer_listOnly hschedule).sets

/-- The timer after `start`. -/
theorem start_sets {time pero : Nat} (h : s.start u time pero = .ok s') :
    Sets s s' u ((s.obj u).started ((s.currentTime_ + time) % 2 ^ 64) pero) := by
  unfold Timers.start at h
  split_ifs at h
  · cases hcancel : s.cancel_timer u with
    | error e =>
      rw [hcancel] at h
      cases h
    | ok p =>
      obtain ⟨s₁, ret⟩ := p
      rw [hcancel] at h
      obtain ⟨hobj, htime⟩ := cancel_timer_listOnly hcancel
      have hstart := startIdle_sets h
      rw [htime, hobj] at hstart
      exact ⟨by rw [hstart.obj, hobj], by rw [hstart.time, htime]⟩
  · exact startIdle_sets h

/-- A call that is not an expiry writes to one timer, or moves the clock. -/
theorem deqheap_ok {now : Nat} (h : s.call (.deqheap now) = .ok s') :
    s.currentTime_ ≤ now ∧ s' = { s with currentTime_ := now } := by
  unfold Timers.call at h
  dsimp only at h
  split_ifs at h with hlt
  exact ⟨Nat.not_lt.1 hlt, (Except.ok.inj h).symm⟩

/-- An expiry moves the clock to the timestamp of the first timer. A one-shot timer is reset, and no
    other timer changes. -/
theorem deqtimer_ok (hs : Intact s) (h : s.call .deqtimer = .ok s') :
    ∃ u, s.timerHead_ = some u ∧ u ∈ s.running ∧ (∀ x ∈ s.running, s.ts u ≤ s.ts x) ∧
      s.currentTime_ ≤ s.ts u ∧ s'.currentTime_ = s.ts u ∧ ∀ x, x ≠ u → s'.obj x = s.obj x := by
  cases hhead : s.timerHead_ with
  | none => simp [Timers.call, Timers.deqtimer, Timers.dequeue_timer, hhead] at h
  | some u =>
    obtain ⟨hu, hmin, ⟨hlt, hres⟩ | ⟨hle, s₁, hres, hh, hobj₁, htime⟩⟩ := deqtimer_spec hs.holds hhead
    · rw [Timers.call, hres] at h
      cases h
    · refine ⟨u, rfl, hu, hmin, hle, ?_⟩
      have hflag₁ : (s₁.obj u).callout_event.flag = .DEFAULT := by rw [hobj₁]; exact hs.flag u
      have hne : ¬ (u ∈ s.running ∧ u ≠ u) := fun hm => hm.2 rfl
      rw [Timers.call, hres] at h
      rcases rearm_spec hh hne hflag₁ with ⟨-, hr, -⟩ | ⟨-, s₂, hr, -, htime₂, hobj₂⟩
      · rw [hr] at h
        rw [← Except.ok.inj h]
        refine ⟨htime, fun x hx => ?_⟩
        rw [← hobj₁]
        exact Function.update_of_ne hx _ _
      · rw [hr] at h
        rw [← Except.ok.inj h]
        refine ⟨htime₂.trans htime, fun x hx => ?_⟩
        rw [hobj₂, ← hobj₁]
        exact Function.update_of_ne hx _ _

/-- A regular call keeps the list intact. -/
theorem Intact.call {c : TimerCall τ} (h : Intact s) (hD : ResumesPaused s c) (hR : ReturnsToList s c)
    (hok : s.call c = .ok s') : Intact s' := by
  obtain ⟨e, herr, -⟩ | ⟨s₁, m, hok', hh, hflag, hiff⟩ := call_cases h hD
  · rw [hok] at herr
    cases herr
  · obtain rfl : s' = s₁ := Except.ok.inj (hok.symm.trans hok')
    exact ⟨hiff.2 hR ▸ hh, hflag⟩

omit [Fintype τ] in
theorem Sets.self {o : TimerObj} (h : Sets s s' t o) : s'.obj t = o := by
  rw [h.obj, Function.update_self]

omit [Fintype τ] in
theorem Sets.other {o : TimerObj} (h : Sets s s' u o) (hne : u ≠ t) : s'.obj t = s.obj t := by
  rw [h.obj, Function.update_of_ne hne.symm]

/-! ## The books -/

namespace TimerAccount

variable {a : TimerAccount τ}

omit [DecidableEq τ] [Fintype τ] in
/-- A live timer is due when its time will be up, or has what is missing to that in `rtime_`. -/
structure Balanced (t : τ) (s : Timers τ) (unpaused granted : Nat) : Prop where
  busy : (s.obj t).busy_ = true
  running : (s.obj t).paused_ = false → s.currentTime_ ≤ s.ts t ∧
    s.ts t + unpaused = s.currentTime_ + granted
  paused : (s.obj t).paused_ = true → (s.obj t).rtime_ + unpaused = granted

omit [DecidableEq τ] [Fintype τ] in
/-- What holds of the timers and of the account of `t`. -/
structure Inv (t : τ) (a : TimerAccount τ) : Prop where
  intact : Intact a.timers
  expired : ∀ e ∈ a.expiries, e.1 = e.2
  balanced : a.live = true → Balanced t a.timers a.unpaused a.granted

omit [DecidableEq τ] [Fintype τ] in
/-- The invariant says that the timer expires on time. -/
theorem Inv.onTime (h : a.Inv t) : a.OnTime t where
  expired := h.expired
  due hlive hrunning := ((h.balanced hlive).running hrunning).2
  listed hlive hrunning := by
    obtain ⟨l, hchain, -, -, hmem⟩ := h.intact.listIntact
    exact ⟨l, hchain, (hmem t).2 ⟨(h.balanced hlive).busy, hrunning⟩⟩

omit [DecidableEq τ] [Fintype τ] in
/-- Nothing changes for the timer when neither it nor the clock changes. -/
theorem Balanced.congr {unpaused granted : Nat} (h : Balanced t s unpaused granted) (hobj : s'.obj t = s.obj t)
    (htime : s'.currentTime_ = s.currentTime_) : Balanced t s' unpaused granted := by
  obtain ⟨hbusy, hrunning, hpaused⟩ := h
  have hts : s'.ts t = s.ts t := by
    unfold Timers.ts
    rw [hobj]
  rw [← hobj] at hbusy hrunning hpaused
  rw [← htime, ← hts] at hrunning
  exact ⟨hbusy, hrunning, hpaused⟩

omit [DecidableEq τ] [Fintype τ] in
/-- The clock goes on, but not past the timer. -/
theorem Balanced.pass (h : Balanced t a.timers a.unpaused a.granted) (hobj : s'.obj t = a.timers.obj t)
    (htime : a.timers.currentTime_ ≤ s'.currentTime_)
    (hdue : (a.timers.obj t).paused_ = false → s'.currentTime_ ≤ a.timers.ts t) :
    Balanced t s' (a.unpausedAt t s'.currentTime_) a.granted := by
  have hts : s'.ts t = a.timers.ts t := by
    unfold Timers.ts
    rw [hobj]
  refine ⟨by rw [hobj]; exact h.busy, ?_, ?_⟩
  · intro hrunning
    rw [hobj] at hrunning
    obtain ⟨-, hsum⟩ := h.running hrunning
    have hnow := hdue hrunning
    unfold unpausedAt
    rw [hrunning, if_neg Bool.false_ne_true, hts]
    omega
  · intro hpaused
    rw [hobj] at hpaused ⊢
    unfold unpausedAt
    rw [if_pos hpaused]
    exact h.paused hpaused

omit [Fintype τ] in
/-- A start opens the account. -/
theorem Balanced.start {time pero : Nat} (hsets : Sets s s' t ((s.obj t).started ((s.currentTime_ + time) % 2 ^ 64) pero))
    (hfits : s.currentTime_ + time < 2 ^ 64) : Balanced t s' 0 time where
  busy := by rw [hsets.self]; rfl
  running _ := by
    have hts : s'.ts t = s.currentTime_ + time := by
      unfold Timers.ts
      rw [hsets.self]
      exact Nat.mod_eq_of_lt hfits
    rw [hts, hsets.time]
    omega
  paused hpaused := by
    rw [hsets.self] at hpaused
    cases hpaused

omit [Fintype τ] in
/-- A pause keeps the account balanced. -/
theorem Balanced.pause {unpaused granted : Nat} (h : Balanced t s unpaused granted)
    (hsets : Sets s s' t { s.obj t with paused_ := true, rtime_ := s.ts t - s.currentTime_ })
    (hagain : (s.obj t).paused_ = true → (s.obj t).rtime_ = s.ts t - s.currentTime_) :
    Balanced t s' unpaused granted where
  busy := by rw [hsets.self]; exact h.busy
  running hrunning := by
    rw [hsets.self] at hrunning
    cases hrunning
  paused _ := by
    rw [hsets.self]
    show s.ts t - s.currentTime_ + unpaused = granted
    cases hpaused : (s.obj t).paused_ with
    | true =>
      rw [← hagain hpaused]
      exact h.paused hpaused
    | false =>
      obtain ⟨hle, hsum⟩ := h.running hpaused
      omega

omit [Fintype τ] in
/-- A paused timer is due once what is missing, and what is added, has passed. -/
theorem Balanced.resume {unpaused granted : Nat} (extra : Nat) {o : TimerObj} (h : Balanced t s unpaused granted)
    (hpaused : (s.obj t).paused_ = true) (hsets : Sets s s' t o) (hbusy : o.busy_ = (s.obj t).busy_)
    (ho : o.paused_ = false)
    (hts : o.callout_event.timeStamp_ = s.currentTime_ + extra + (s.obj t).rtime_) :
    Balanced t s' unpaused (granted + extra) where
  busy := by rw [hsets.self, hbusy]; exact h.busy
  running _ := by
    have hts' : s'.ts t = s.currentTime_ + extra + (s.obj t).rtime_ := by
      unfold Timers.ts
      rw [hsets.self]
      exact hts
    have hsum := h.paused hpaused
    rw [hts', hsets.time]
    omega
  paused hpaused' := by
    rw [hsets.self, ho] at hpaused'
    cases hpaused'

/-- **Step.** A regular call keeps the account. -/
theorem Inv.call {a' : TimerAccount τ} {c : TimerCall τ} (h : a.Inv t) (hc : a.Regular t c)
    (hok : a.call t c = .ok a') : a'.Inv t := by
  obtain ⟨hcounts, hD, hR⟩ := hc
  unfold TimerAccount.call at hok
  cases hcall : a.timers.call c with
  | error e =>
    rw [hcall] at hok
    cases hok
  | ok s =>
    rw [hcall] at hok
    obtain rfl := Except.ok.inj hok
    have hintact := h.intact.call hD hR hcall
    cases c with
    | start u time pero =>
      have hsets := start_sets hcall
      unfold enter
      dsimp only
      split_ifs with hu
      · subst hu
        exact ⟨hintact, h.expired, fun _ => Balanced.start hsets (hcounts rfl)⟩
      · exact ⟨hintact, h.expired, fun hlive => (h.balanced hlive).congr (hsets.other hu) hsets.time⟩
    | cancel u =>
      have hsets := cancel_sets hcall
      unfold enter
      dsimp only
      split_ifs with hu
      · exact ⟨hintact, h.expired, fun hlive => by cases hlive⟩
      · exact ⟨hintact, h.expired, fun hlive => (h.balanced hlive).congr (hsets.other hu) hsets.time⟩
    | pause u =>
      have hsets := pause_sets hcall
      refine ⟨hintact, h.expired, fun hlive => ?_⟩
      by_cases hu : u = t
      · subst hu
        exact (h.balanced hlive).pause hsets (hcounts rfl)
      · exact (h.balanced hlive).congr (hsets.other hu) hsets.time
    | resumeBy u time =>
      have hsets := resumeBy_sets hcall
      unfold enter
      dsimp only
      split_ifs with hu
      · subst hu
        exact ⟨hintact, h.expired, fun hlive =>
          (h.balanced hlive).resume time hD hsets rfl rfl (Nat.mod_eq_of_lt (hcounts rfl))⟩
      · exact ⟨hintact, h.expired, fun hlive => (h.balanced hlive).congr (hsets.other hu) hsets.time⟩
    | resume u =>
      have hsets := resume_sets hcall
      refine ⟨hintact, h.expired, fun hlive => ?_⟩
      by_cases hu : u = t
      · subst hu
        exact (h.balanced hlive).resume 0 hD hsets rfl rfl (Nat.mod_eq_of_lt (hcounts rfl))
      · exact (h.balanced hlive).congr (hsets.other hu) hsets.time
    | deqheap now =>
      obtain ⟨hle, rfl⟩ := deqheap_ok hcall
      refine ⟨hintact, h.expired, fun hlive => (h.balanced hlive).pass rfl hle fun hrunning => ?_⟩
      obtain ⟨l, hl, hm⟩ := h.intact.holds
      have ht : t ∈ l := (hm t).2 ⟨(h.balanced hlive).busy, hrunning⟩
      cases hhead : a.timers.timerHead_ with
      | none =>
        rw [hl.head_eq_none_iff.1 hhead] at ht
        cases ht
      | some u => exact (hcounts u hhead).trans (hl.head_le hhead t ht)
    | deqtimer =>
      obtain ⟨u, hhead, hu, hmin, hle, htime, hother⟩ := deqtimer_ok h.intact hcall
      unfold enter
      dsimp only
      split_ifs with hexpires
      · refine ⟨hintact, ?_, fun hlive => by cases hlive⟩
        obtain rfl : u = t := Option.some.inj (hhead.symm.trans hexpires.1)
        intro e he
        rcases List.mem_cons.1 he with rfl | he
        · obtain ⟨-, hsum⟩ := (h.balanced hexpires.2).running hu.2
          unfold unpausedAt
          rw [hu.2, if_neg Bool.false_ne_true, htime]
          dsimp only
          omega
        · exact h.expired e he
      · refine ⟨hintact, h.expired, fun hlive => ?_⟩
        have hut : t ≠ u := by
          rintro rfl
          exact hexpires ⟨hhead, hlive⟩
        refine (h.balanced hlive).pass (hother t hut) (by rw [htime]; exact hle) fun hrunning => ?_
        rw [htime]
        exact hmin t ⟨(h.balanced hlive).busy, hrunning⟩

/-- **Pause and resume.** A timer expires when the time it has not been paused comes to what it was
    granted, if it is not paused a second time after the clock has moved. -/
theorem run_onTime (t : τ) (now : Nat) (addr : τ → Nat) (calls : List (TimerCall τ))
    (h : Run.Along (call t) (Regular t) (new now addr) calls) :
    Run.Always (call t) (OnTime t) (new now addr) calls := by
  refine (Run.Always.of_along (I := Inv t) (fun _ _ _ ha hc hok => ha.call hc hok) ?_ h).mono
    fun _ ha => ha.onTime
  refine ⟨⟨⟨[], new_listed now addr, fun x => ?_⟩, fun _ => rfl⟩, fun e he => absurd he List.not_mem_nil,
    fun hlive => by cases hlive⟩
  simp [Timers.running, Timers.new, TimerObj.new, new]

/-- A timer of 10 ticks that is paused twice at the same clock and resumed with 5 more. -/
theorem run_onTime_resumed :
    let calls : List (TimerCall (Fin 2)) := [.start 0 10 0, .deqheap 4, .pause 0, .pause 0, .deqheap 9,
      .resumeBy 0 5, .start 1 2 0, .deqtimer, .pause 0, .deqheap 20, .resume 0, .deqtimer]
    Run.Always (call 0) (OnTime 0) (new 0 fun t => t.val) calls :=
  run_onTime 0 0 _ _ (by decide)

/-- The second `pause` counts the time since the first one as time that the timer has run. -/
theorem pause_twice_expires_early :
    ¬ Run.Always (call 0) (OnTime 0) (new 0 fun t : Fin 1 => t.val)
      [.start 0 10 0, .deqheap 4, .pause 0, .deqheap 7, .pause 0, .resume 0, .deqtimer] := by
  intro h
  obtain ⟨a, ha, hexpiries⟩ := h.exec_map (f := expiries) (b := [(7, 10)]) (by decide)
  exact absurd (ha.expired (7, 10) (by rw [hexpiries]; exact List.mem_singleton_self _)) (by decide)

end TimerAccount

end Engine
