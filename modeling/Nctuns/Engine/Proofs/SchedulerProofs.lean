import Nctuns.Engine.Scheduler
import Nctuns.Engine.Proofs.HeapProofs
import Nctuns.Engine.Proofs.TimerProofs

/-!
# Proofs: the scheduler

`Inv` is the invariant of the engine: the heap and the timer list are in timestamp order, nothing in
them is due before the current time, and the timers in the list are busy, so that `start` takes them
out before it puts them in again. Whatever a handler calls keeps it without moving the clock.
-/

namespace Engine

open TreeHeap

variable {τ : Type*} {s s' : Scheduler τ} {x : Except Halt (Scheduler τ)}

/-- The timer list is in order, and its timers are busy and not due before the current time. -/
structure TimersDue (s : Timers τ) : Prop where
  holds : ∃ m, Holds s m ∧ ∀ t ∈ m, (s.obj t).busy_ = true ∧ s.currentTime_ ≤ s.ts t
  flag : ∀ t, (s.obj t).callout_event.flag = .DEFAULT

/-- The invariant of the engine. -/
structure Inv (s : Scheduler τ) : Prop where
  heap : s.heap_.OrderedBy NotLater
  heapDue : ∀ e ∈ s.heap_.events, s.currentTime_ ≤ e.timeStamp_
  timers : TimersDue s.toTimers

/-- A step from `s` that keeps the invariant and the clock, or stops without a missed event. -/
def Keeps (s : Scheduler τ) : Except Halt (Scheduler τ) → Prop
  | .ok s' => Inv s' ∧ s'.currentTime_ = s.currentTime_ ∧ s'.simulateTime_ = s.simulateTime_
  | .error e => e ≠ .missedEvent ∧ e ≠ .missedTimer

theorem Keeps.refl (h : Inv s) : Keeps s (.ok s) := ⟨h, rfl, rfl⟩

/-- The invariant holds of the new scheduler. -/
theorem new_inv (simulateTime_ max_heap : Nat) (addr : τ → Nat) :
    Inv (Scheduler.new simulateTime_ max_heap addr) where
  heap := new_orderedBy _ max_heap
  heapDue _ _ := Nat.zero_le _
  timers := ⟨⟨∅, ⟨[], new_listed 0 addr, by simp⟩, by simp⟩, fun _ => rfl⟩

/-- Two steps in a row keep the invariant. -/
theorem Keeps.bind {f : Scheduler τ → Except Halt (Scheduler τ)} (hx : Keeps s x)
    (hf : ∀ s', Inv s' → Keeps s' (f s')) : Keeps s (x >>= f) := by
  cases x with
  | error e => exact hx
  | ok s₁ =>
    obtain ⟨hinv, htime, hsim⟩ := hx
    have h := hf s₁ hinv
    change Keeps s (f s₁)
    cases hfs : f s₁ with
    | error e => rw [hfs] at h; exact h
    | ok s₂ => rw [hfs] at h; exact ⟨h.1, h.2.1.trans htime, h.2.2.trans hsim⟩

/-- A run of steps that keep the invariant keeps it. -/
theorem Keeps.exec {ι : Type*} {step : Scheduler τ → ι → Except Halt (Scheduler τ)}
    (hstep : ∀ s i, Inv s → Keeps s (step s i)) (hs : Inv s) (is : List ι) :
    Keeps s (Run.exec step s is) := by
  induction is generalizing s with
  | nil => exact Keeps.refl hs
  | cons i is ih =>
    have hbind : Run.exec step s (i :: is) = step s i >>= fun s' => Run.exec step s' is := by
      rw [Run.exec]; cases step s i <;> rfl
    rw [hbind]
    exact (hstep s i hs).bind fun s' hs' => ih hs'

/-- A round from `s` that does not turn the clock back, or stops without a missed event. -/
def Advances (s : Scheduler τ) : Except Halt (Scheduler τ) → Prop
  | .ok s' => Inv s' ∧ s.currentTime_ ≤ s'.currentTime_ ∧ s'.simulateTime_ = s.simulateTime_
  | .error e => e ≠ .missedEvent ∧ e ≠ .missedTimer

/-- A step that keeps the invariant after the clock moved forward advances. -/
theorem Keeps.advances {s₁ : Scheduler τ} (hx : Keeps s₁ x) (hle : s.currentTime_ ≤ s₁.currentTime_)
    (hsim : s₁.simulateTime_ = s.simulateTime_) : Advances s x := by
  cases x with
  | error e => exact hx
  | ok s' => exact ⟨hx.1, hx.2.1 ▸ hle, hx.2.2.trans hsim⟩

/-! ## Events -/

/-- The two errors of `insertEvent`. -/
theorem insertEvent_error {h : HeapObject} {now maxsimtime : Nat} {ep : Option Event} {e : Halt}
    (herr : h.insertEvent now maxsimtime ep = .error e) : e = .heapFull ∨ e = .insertPast := by
  cases ep with
  | none => simp [HeapObject.insertEvent] at herr
  | some ep =>
    simp only [HeapObject.insertEvent] at herr
    split_ifs at herr
    · exact .inl (Except.error.inj herr).symm
    · exact .inr (Except.error.inj herr).symm

/-- Setting an event keeps the invariant, because events of the past are rejected. -/
theorem keeps_setEvent (h : Inv s) (ep : Event) : Keeps s (Prod.fst <$> s.setEvent ep) := by
  unfold Scheduler.setEvent
  cases hins : s.heap_.insertEvent s.currentTime_ s.simulateTime_ (some ep) with
  | error e =>
    rcases insertEvent_error hins with rfl | rfl <;> exact ⟨by simp, by simp⟩
  | ok p =>
    obtain ⟨h', ret⟩ := p
    rcases insertEvent_cases hins with ⟨rfl, -⟩ | ⟨e, -, -, hle, -, hev, hord⟩
    · exact ⟨⟨h.heap, h.heapDue, h.timers⟩, rfl, rfl⟩
    · refine ⟨⟨hord _ respects_notLater h.heap, fun x hx => ?_, h.timers⟩, rfl, rfl⟩
      rcases Multiset.mem_cons.1 (hev ▸ hx) with rfl | hx
      · exact hle
      · exact h.heapDue x hx

/-- The one error of the time of a kernel event. -/
theorem tunTicks_error {K : Ticks} {now : Nat} {te : TunEvent} {e : Halt}
    (herr : tunTicks K now te = .error e) : e = .kernelPast := by
  unfold tunTicks at herr
  cases hf : te.flag with
  | T0E_CHKTUN => simp [hf] at herr
  | T0E_TIMEOUT | T0E_CHK_CMDIPC | T0E_NOTICE_CHILD_PGID =>
    simp only [hf] at herr
    split_ifs at herr
    exact (Except.error.inj herr).symm

/-- Reading a kernel event keeps the invariant. -/
theorem keeps_readTunEvent (K : Ticks) (te : TunEvent) (h : Inv s) :
    Keeps s (s.readTunEvent K te) := by
  unfold Scheduler.readTunEvent
  cases hte : tunTicks K s.currentTime_ te with
  | error e => rw [tunTicks_error hte]; exact ⟨by simp, by simp⟩
  | ok ep =>
    have hset := keeps_setEvent h ep
    dsimp only
    cases hse : s.setEvent ep with
    | error e => rw [hse] at hset; exact hset
    | ok p =>
      rw [hse] at hset
      dsimp only
      split_ifs
      · exact ⟨by simp, by simp⟩
      · exact hset

theorem keeps_readt0e (K : Ticks) (tes : List TunEvent) (h : Inv s) : Keeps s (s.readt0e K tes) :=
  Keeps.exec (fun _ te hs => keeps_readTunEvent K te hs) h tes

/-- The look at the tunnel keeps the invariant. -/
theorem keeps_chktunnel (tunnel : Option Nat) (h : Inv s) : Keeps s (s.chktunnel tunnel) := by
  cases tunnel with
  | none => exact Keeps.refl h
  | some addr => exact keeps_setEvent h _

/-! ## The choice of the next event -/

/-- What is pending: the events of the heap and the timers `m` of the list. -/
theorem mem_pending {m : Set τ} (hm : Holds s.toTimers m) {p : Nat} :
    p ∈ s.pending ↔ (∃ e ∈ s.heap_.events, e.timeStamp_ = p) ∨ ∃ t ∈ m, s.ts t = p := by
  obtain ⟨l, hl, hmem⟩ := hm
  constructor
  · rintro (he | ⟨l', hl', t, ht, hp⟩)
    · exact .inl he
    · obtain rfl := hl'.unique hl.chain
      exact .inr ⟨t, (hmem t).1 ht, hp⟩
  · rintro (he | ⟨t, ht, hp⟩)
    · exact .inl he
    · exact .inr ⟨l, hl.chain, t, (hmem t).2 ht, hp⟩

/-- The first timer of the list is due no later than the others. -/
theorem head_le {m : Set τ} (hm : Holds s.toTimers m) {t : τ} (ht : s.timerHead_ = some t) :
    t ∈ m ∧ ∀ x ∈ m, s.ts t ≤ s.ts x := by
  obtain ⟨l, hl, hmem⟩ := hm
  obtain ⟨l', rfl, -⟩ := (ht ▸ hl.chain).eq_cons
  exact ⟨(hmem t).1 (by simp), fun x hx => hl.head_le ht x ((hmem x).2 hx)⟩

/-- With no head there is no timer on the list. -/
theorem no_timer {m : Set τ} (hm : Holds s.toTimers m) (hnone : s.timerHead_ = none) (t : τ) :
    t ∉ m := by
  obtain ⟨l, hl, hmem⟩ := hm
  obtain rfl := hl.head_eq_none_iff.1 hnone
  exact fun ht => by simpa using (hmem t).2 ht

theorem root_le (h : Inv s) : ∀ e ∈ s.heap_.events, (s.heap_.eventHeap_ 1).timeStamp_ ≤ e.timeStamp_ :=
  fun _ he => h.heap.root respects_notLater he

/-- The heap is chosen when its root is due no later than the first timer. -/
theorem pick_heap (hpick : s.pick = .heap) : s.heap_.numEvent_ ≠ 0 ∧
    ∀ t, s.timerHead_ = some t → (s.heap_.eventHeap_ 1).timeStamp_ ≤ s.ts t := by
  unfold Scheduler.pick at hpick
  cases hhead : s.timerHead_ with
  | none =>
    simp only [hhead] at hpick
    split_ifs at hpick with hn
    exact ⟨by omega, by simp⟩
  | some t =>
    simp only [hhead] at hpick
    split_ifs at hpick with hn hlt heq
    · exact ⟨by omega, fun _ hu => Option.some.inj hu ▸ by omega⟩
    · exact ⟨by omega, fun _ hu => Option.some.inj hu ▸ by omega⟩

/-- The timer list is chosen when its first timer is due no later than the root of the heap. -/
theorem pick_timer (hpick : s.pick = .timer) : ∃ t, s.timerHead_ = some t ∧
    (s.heap_.numEvent_ ≠ 0 → s.ts t ≤ (s.heap_.eventHeap_ 1).timeStamp_) := by
  unfold Scheduler.pick at hpick
  cases hhead : s.timerHead_ with
  | none =>
    simp only [hhead] at hpick
    split_ifs at hpick
  | some t =>
    refine ⟨t, rfl, fun hn => ?_⟩
    simp only [hhead] at hpick
    split_ifs at hpick with hn' hlt heq hprio
    · omega
    · omega
    · omega

/-- Nothing is picked only from an empty heap and an empty list. -/
theorem pick_idle (hpick : s.pick = .idle) : s.heap_.numEvent_ = 0 ∧ s.timerHead_ = none := by
  unfold Scheduler.pick at hpick
  cases hhead : s.timerHead_ with
  | none =>
    simp only [hhead] at hpick
    split_ifs at hpick with hn
    exact ⟨by omega, rfl⟩
  | some t =>
    simp only [hhead] at hpick
    split_ifs at hpick

/-- A heap with an event counts it. -/
theorem mem_events_numEvent {h : HeapObject} {e : Event} (he : e ∈ h.events) : h.numEvent_ ≠ 0 := by
  obtain ⟨k, h1, hk, -⟩ := mem_contents.1 he
  omega

/-- `deqheap` runs the event that is due first and moves the clock to its timestamp. -/
theorem deqheap_spec (h : Inv s) (hpick : s.pick = .heap) :
    ∃ ep s', s.deqheap = .ok (ep, s') ∧ s.currentTime_ ≤ ep.timeStamp_ ∧
      s'.currentTime_ = ep.timeStamp_ ∧ ep.timeStamp_ ∈ s.pending ∧
      (∀ p ∈ s.pending, ep.timeStamp_ ≤ p) ∧ Inv s' ∧ s'.simulateTime_ = s.simulateTime_ := by
  obtain ⟨hn, htimer⟩ := pick_heap hpick
  obtain ⟨m, hm, hdue⟩ := h.timers.holds
  obtain ⟨hroot, hev, -⟩ := dequeueEvent_cases hn
  have hmem : s.heap_.eventHeap_ 1 ∈ s.heap_.events := by rw [hev]; exact Multiset.mem_cons_self _ _
  have hle := h.heapDue _ hmem
  have htm : ∀ t ∈ m, (s.heap_.eventHeap_ 1).timeStamp_ ≤ s.ts t := by
    intro t ht
    cases hhead : s.timerHead_ with
    | none => exact absurd ht (no_timer hm hhead t)
    | some u => exact (htimer u hhead).trans ((head_le hm hhead).2 t ht)
  refine ⟨s.heap_.eventHeap_ 1, { s with
    heap_ := s.heap_.dequeueEvent.2, currentTime_ := (s.heap_.eventHeap_ 1).timeStamp_ },
    ?_, hle, rfl, ?_, ?_, ⟨?_, ?_, ?_⟩, rfl⟩
  · have hpair : s.heap_.dequeueEvent = (some (s.heap_.eventHeap_ 1), s.heap_.dequeueEvent.2) :=
      Prod.ext hroot rfl
    unfold Scheduler.deqheap
    rw [hpair]
    simp [Nat.not_lt.2 hle]
  · exact (mem_pending hm).2 (.inl ⟨_, hmem, rfl⟩)
  · intro p hp
    rcases (mem_pending hm).1 hp with ⟨e, he, rfl⟩ | ⟨t, ht, rfl⟩
    · exact root_le h e he
    · exact htm t ht
  · exact dequeueEvent_orderedBy_notLater h.heap
  · exact fun e he => root_le h e (hev ▸ Multiset.mem_cons_of_mem he)
  · exact ⟨⟨m, hm.setTime _, fun t ht => ⟨(hdue t ht).1, htm t ht⟩⟩, h.timers.flag⟩

/-! ## Timers -/

/-- Timers that change without the clock keep the invariant of the engine. -/
theorem Inv.setTimers {ts : Timers τ} (h : Inv s) (htime : ts.currentTime_ = s.currentTime_)
    (hts : TimersDue ts) : Keeps s (.ok { s with toTimers := ts }) :=
  ⟨⟨h.heap, fun e he => by change ts.currentTime_ ≤ _; rw [htime]; exact h.heapDue e he, hts⟩,
    htime, rfl⟩

variable [DecidableEq τ] [Fintype τ]

/-- Starting a timer keeps the invariant. -/
theorem keeps_start (t : τ) (time pero : Nat) (h : Inv s) :
    Keeps s (s.onTimers fun ts => ts.start t time pero) := by
  obtain ⟨m, hm, hdue⟩ := h.timers.holds
  rcases start_spec (t := t) hm (fun ht => (hdue t ht).1) time pero with
    ⟨-, hres⟩ | ⟨hle, ts, hres, hh, htime, hobj⟩
  · simp only [Scheduler.onTimers, hres]; exact ⟨by simp, by simp⟩
  · simp only [Scheduler.onTimers, hres]
    refine h.setTimers htime ⟨⟨_, hh, fun x hx => ?_⟩, flag_update hobj h.timers.flag (h.timers.flag t)⟩
    by_cases hxt : x = t
    · subst hxt
      simp only [hobj, Timers.ts, Function.update_self, htime, TimerObj.started]
      exact ⟨trivial, hle⟩
    · have := hdue x (hx.resolve_right hxt)
      simpa [hobj, Timers.ts, Function.update_of_ne hxt, htime] using this

/-- Cancelling a timer keeps the invariant. -/
theorem keeps_cancel (t : τ) (h : Inv s) : Keeps s (s.onTimers fun ts => ts.cancel t) := by
  obtain ⟨m, hm, hdue⟩ := h.timers.holds
  obtain ⟨ts, hres, hh, htime, hobj⟩ := cancel_spec hm t
  simp only [Scheduler.onTimers, hres]
  refine h.setTimers htime ⟨⟨_, hh, fun x hx => ?_⟩, flag_update hobj h.timers.flag (h.timers.flag t)⟩
  have := hdue x hx.1
  simpa [hobj, Timers.ts, Timers.init, Timers.setObj, Function.update_of_ne hx.2, htime] using this

/-- Whatever the code outside calls keeps the invariant and the clock. -/
theorem keeps_call (K : Ticks) (c : EngineCall τ) (h : Inv s) : Keeps s (s.call K c) := by
  cases c with
  | insertEvent ep => exact keeps_setEvent h ep
  | start t time pero => exact keeps_start t time pero h
  | cancel t => exact keeps_cancel t h
  | chkt0e tes => exact keeps_readt0e K tes h

theorem keeps_calls (K : Ticks) (cs : List (EngineCall τ)) (h : Inv s) : Keeps s (s.calls K cs) :=
  Keeps.exec (fun _ c hs => keeps_call K c hs) h cs

/-- Executing what was picked keeps the invariant. -/
theorem keeps_dispatch (K : Ticks) (flag : Flag) (r : Round τ) (h : Inv s) :
    Keeps s (s.dispatch K flag r) := by
  cases flag with
  | DEFAULT => exact keeps_calls K r.handler h
  | KTIMEOUT => exact keeps_readt0e K r.callouts h
  | CHKTUN => exact keeps_chktunnel r.tunnel h
  | CMD_SERVER => exact keeps_calls K r.handler h

theorem keeps_beforePick (K : Ticks) (r : Round τ) (h : Inv s) : Keeps s (s.beforePick K r) :=
  (keeps_readt0e K r.t0e h).bind fun _ hs => keeps_calls K r.gui hs

/-- `deqtimer` runs the timer that is due first and moves the clock to its timestamp. -/
theorem deqtimer_runs (h : Inv s) (hpick : s.pick = .timer) :
    ∃ t s', s.deqtimer = .ok (t, s') ∧ s.currentTime_ ≤ s.ts t ∧ s'.currentTime_ = s.ts t ∧
      s.ts t ∈ s.pending ∧ (∀ p ∈ s.pending, s.ts t ≤ p) ∧ Inv s' ∧
      s'.simulateTime_ = s.simulateTime_ := by
  obtain ⟨t, hhead, hheap⟩ := pick_timer hpick
  obtain ⟨m, hm, hdue⟩ := h.timers.holds
  obtain ⟨ht, hmin, ⟨hlt, -⟩ | ⟨hle, s₁, hres, hh, hobj₁, htime₁⟩⟩ := deqtimer_spec hm hhead
  · exact absurd (hdue t ht).2 (Nat.not_le.2 hlt)
  have hev : ∀ e ∈ s.heap_.events, s.ts t ≤ e.timeStamp_ := fun e he =>
    (hheap (mem_events_numEvent he)).trans (root_le h e he)
  have hpend : ∀ p ∈ s.pending, s.ts t ≤ p := by
    intro p hp
    rcases (mem_pending hm).1 hp with ⟨e, he, rfl⟩ | ⟨x, hx, rfl⟩
    · exact hev e he
    · exact hmin x hx
  have hmem : s.ts t ∈ s.pending := (mem_pending hm).2 (.inr ⟨t, ht, rfl⟩)
  have hflag₁ : ∀ x, (s₁.obj x).callout_event.flag = .DEFAULT := by rw [hobj₁]; exact h.timers.flag
  have hdue₁ : ∀ x ∈ {x | x ∈ m ∧ x ≠ t}, (s₁.obj x).busy_ = true ∧ s.ts t ≤ s₁.ts x := by
    intro x hx
    simp only [Timers.ts, hobj₁]
    exact ⟨(hdue x hx.1).1, hmin x hx.1⟩
  rcases rearm_spec hh (fun hm => hm.2 rfl) (hflag₁ t) with ⟨-, hr, hh'⟩ | ⟨-, s₂, hr, hh', htime₂, hobj₂⟩
  · refine ⟨t, { s with toTimers := s₁.init t }, ?_, hle, htime₁, hmem, hpend,
      ⟨h.heap, fun e he => ?_, ⟨⟨_, hh', fun x hx => ?_⟩, ?_⟩⟩, rfl⟩
    · unfold Scheduler.deqtimer; rw [hres, hr]; rfl
    · exact htime₁.trans_le (hev e he)
    · have := hdue₁ x hx
      simpa [Timers.init, Timers.setObj, Timers.ts, Function.update_of_ne hx.2, htime₁] using this
    · exact flag_update (o := { s₁.obj t with busy_ := false, paused_ := false, rtime_ := 0 }) rfl
        hflag₁ (hflag₁ t)
  · refine ⟨t, { s with toTimers := s₂ }, ?_, hle, htime₂.trans htime₁, hmem, hpend,
      ⟨h.heap, fun e he => ?_, ⟨⟨_, hh', fun x hx => ?_⟩, flag_update hobj₂ hflag₁ (hflag₁ t)⟩⟩, rfl⟩
    · unfold Scheduler.deqtimer; rw [hres, hr]; rfl
    · exact (htime₂.trans htime₁).trans_le (hev e he)
    · rcases hx with hx | ⟨rfl, hx⟩
      · have := hdue₁ x hx
        simpa [hobj₂, Timers.ts, Function.update_of_ne hx.2, htime₂, htime₁] using this
      · have hb : (s₁.obj x).busy_ = true := by rw [hobj₁]; exact (hdue x ht).1
        simp only [hobj₂, Timers.ts, Function.update_self, htime₂]
        exact ⟨hb, hx⟩

/-- What is executed next is what is due first. -/
theorem runsSmallest (h : Inv s) : RunsSmallest s := by
  unfold RunsSmallest
  cases hpick : s.pick with
  | heap =>
    obtain ⟨ep, s', hres, hle, htime, hmem, hmin, -⟩ := deqheap_spec h hpick
    exact ⟨ep, s', hres, hle, htime, hmem, hmin⟩
  | timer =>
    obtain ⟨t, s', hres, hle, htime, hmem, hmin, -⟩ := deqtimer_runs h hpick
    exact ⟨t, s', hres, hle, htime, hmem, hmin⟩
  | idle =>
    obtain ⟨hn, hhead⟩ := pick_idle hpick
    obtain ⟨m, hm, -⟩ := h.timers.holds
    refine Set.eq_empty_iff_forall_notMem.2 fun p hp => ?_
    rcases (mem_pending hm).1 hp with ⟨e, he, -⟩ | ⟨t, ht, -⟩
    · exact mem_events_numEvent he hn
    · exact no_timer hm hhead t ht

/-! ## Rounds -/

/-- A round from the choice on; the clock jumps to the end of the simulation when nothing is left. -/
theorem advances_afterPick (K : Ticks) (r : Round τ) (h : Inv s)
    (hend : s.currentTime_ ≤ (s.simulateTime_ + 1) % 2 ^ 64) : Advances s (s.afterPick K r) := by
  unfold Scheduler.afterPick
  cases hpick : s.pick with
  | heap =>
    obtain ⟨ep, s₁, hres, hle, htime, -, -, hinv, hsim⟩ := deqheap_spec h hpick
    have hkeep := (keeps_dispatch K ep.flag r hinv).bind fun _ hs => keeps_calls K r.serve hs
    simp only [hres]
    exact hkeep.advances (htime ▸ hle) hsim
  | timer =>
    obtain ⟨t, s₁, hres, hle, htime, -, -, hinv, hsim⟩ := deqtimer_runs h hpick
    have hkeep := (keeps_dispatch K (s₁.obj t).callout_event.flag r hinv).bind fun _ hs =>
      keeps_calls K r.serve hs
    simp only [hres]
    exact hkeep.advances (htime ▸ hle) hsim
  | idle =>
    obtain ⟨hn, hhead⟩ := pick_idle hpick
    obtain ⟨m, hm, -⟩ := h.timers.holds
    refine ⟨⟨h.heap, fun e he => absurd hn (mem_events_numEvent he),
      ⟨⟨m, hm.setTime _, fun t ht => absurd ht (no_timer hm hhead t)⟩, h.timers.flag⟩⟩, hend, rfl⟩

/-- A round from the choice on runs what is due first: handlers do not move the clock any further. -/
theorem afterPick_least (K : Ticks) (r : Round τ) (h : Inv s) {s' : Scheduler τ}
    (hres : s.afterPick K r = .ok s') (hsome : s.pending.Nonempty) :
    s'.currentTime_ ∈ s.pending ∧ ∀ p ∈ s.pending, s'.currentTime_ ≤ p := by
  unfold Scheduler.afterPick at hres
  cases hpick : s.pick with
  | heap =>
    obtain ⟨ep, s₁, hdeq, -, htime, hmem, hmin, hinv, -⟩ := deqheap_spec h hpick
    have hkeep := (keeps_dispatch K ep.flag r hinv).bind fun _ hs => keeps_calls K r.serve hs
    rw [hpick] at hres
    simp only [hdeq] at hres
    have hkeep : Keeps s₁ (.ok s') := hres ▸ hkeep
    rw [hkeep.2.1, htime]
    exact ⟨hmem, hmin⟩
  | timer =>
    obtain ⟨t, s₁, hdeq, -, htime, hmem, hmin, hinv, -⟩ := deqtimer_runs h hpick
    have hkeep := (keeps_dispatch K (s₁.obj t).callout_event.flag r hinv).bind fun _ hs =>
      keeps_calls K r.serve hs
    rw [hpick] at hres
    simp only [hdeq] at hres
    have hkeep : Keeps s₁ (.ok s') := hres ▸ hkeep
    rw [hkeep.2.1, htime]
    exact ⟨hmem, hmin⟩
  | idle =>
    have hnone := runsSmallest h
    unfold RunsSmallest at hnone
    rw [hpick] at hnone
    exact absurd hnone hsome.ne_empty

/-- A round moves the clock forward and keeps the invariant. -/
theorem advances_round (K : Ticks) (r : Round τ) (h : Inv s)
    (hend : s.currentTime_ ≤ (s.simulateTime_ + 1) % 2 ^ 64) : Advances s (s.round K r) := by
  have hbefore := keeps_beforePick K r h
  unfold Scheduler.round
  cases hres : s.beforePick K r with
  | error e => rw [hres] at hbefore; exact hbefore
  | ok s₁ =>
    rw [hres] at hbefore
    obtain ⟨hinv, htime, hsim⟩ := hbefore
    have hafter := advances_afterPick K r hinv (by rw [htime, hsim]; exact hend)
    change Advances s (s₁.afterPick K r)
    cases hs₂ : s₁.afterPick K r with
    | error e => rw [hs₂] at hafter; exact hafter
    | ok s₂ =>
      rw [hs₂] at hafter
      exact ⟨hafter.1, htime ▸ hafter.2.1, hafter.2.2.trans hsim⟩

/-- **Round.** Every round from a state with the invariant is safe. -/
theorem safeRound (K : Ticks) (r : Round τ) (h : Inv s)
    (hend : s.currentTime_ ≤ (s.simulateTime_ + 1) % 2 ^ 64) : SafeRound K s r := by
  have hround := advances_round K r h hend
  refine ⟨fun s₁ hres => ?_, fun s₁ s' hres hres' => ?_, fun s' hres => ?_, fun hres => ?_, fun hres => ?_⟩
  · have hbefore := keeps_beforePick K r h
    rw [hres] at hbefore
    exact runsSmallest hbefore.1
  · have hbefore := keeps_beforePick K r h
    rw [hres] at hbefore
    unfold Scheduler.round at hres'
    rw [hres] at hres'
    exact afterPick_least K r hbefore.1 hres'
  · rw [hres] at hround; exact hround.2.1
  · rw [hres] at hround; exact hround.1 rfl
  · rw [hres] at hround; exact hround.2 rfl

/-- **Virtual clock.** In every run of `executeEvent`, after any calls that set the simulation up,
    each round runs the event or timer that is due first, never turns the clock back and misses no
    event. -/
theorem executeEvent_safe (K : Ticks) (simulateTime_ max_heap : Nat) (addr : τ → Nat)
    (hsim : simulateTime_ + 1 < 2 ^ 64) (setup : List (EngineCall τ)) (s : Scheduler τ)
    (hsetup : (Scheduler.new simulateTime_ max_heap addr).calls K setup = .ok s)
    (rounds : List (Round τ)) : Run.Along (Scheduler.loop K) (SafeRound K) s rounds := by
  have hs := keeps_calls K setup (new_inv simulateTime_ max_heap addr)
  rw [hsetup] at hs
  refine Run.Along.of_inv (C := fun _ _ => True) (I := fun s => Inv s ∧
    s.simulateTime_ = simulateTime_ ∧ s.currentTime_ ≤ simulateTime_) ?_ ?_
      ⟨hs.1, hs.2.2, hs.2.1.trans_le (Nat.zero_le _)⟩ (Run.Along.true s rounds)
  · rintro s r s' ⟨hinv, hst, hle⟩ - hloop
    have hround := advances_round K r hinv (by rw [hst, Nat.mod_eq_of_lt hsim]; omega)
    cases hres : s.round K r with
    | error e => simp only [Scheduler.loop, hres] at hloop; cases hloop
    | ok s₁ =>
      rw [hres] at hround
      have hgo : (if s₁.currentTime_ ≤ s₁.simulateTime_ then Except.ok s₁ else .error Halt.finished) =
          Except.ok s' := by rw [← hloop, Scheduler.loop, hres]; rfl
      split_ifs at hgo with hlt
      obtain rfl := Except.ok.inj hgo
      have hst₁ := hround.2.2.trans hst
      exact ⟨hround.1, hst₁, hst₁ ▸ hlt⟩
  · rintro s r ⟨hinv, hst, hle⟩ -
    exact safeRound K r hinv (by rw [hst, Nat.mod_eq_of_lt hsim]; omega)

/-- A periodic timer, a one-shot timer that is cancelled by the first handler, and an event. -/
theorem executeEvent_safe_run :
    let K : Ticks := ⟨10, fun value => value * 100⟩
    let setup : List (EngineCall (Fin 2)) := [.start 0 30 30, .start 1 50 0, .insertEvent (newEvent 7 30 1)]
    let idle : Round (Fin 2) := ⟨[], [], [], none, [], []⟩
    let rounds := [{ idle with handler := [.cancel 1] }, { idle with serve := [.start 1 5 0] }, idle, idle]
    ∃ s, (Scheduler.new 100 10 fun t => t.val).calls K setup = .ok s ∧
      Run.Along (Scheduler.loop K) (SafeRound K) s rounds := by
  intro K setup idle rounds
  obtain ⟨s, hs⟩ : ∃ s, (Scheduler.new 100 10 fun t => t.val).calls K setup = .ok s := ⟨_, rfl⟩
  exact ⟨s, hs, executeEvent_safe K 100 10 _ (by decide) setup s hs rounds⟩

end Engine
