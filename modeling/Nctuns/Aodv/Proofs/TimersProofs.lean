import Nctuns.Aodv.Timers
import Nctuns.Engine.Proofs.TimerProofs
import Nctuns.Lib.Outcome
import Nctuns.Lib.Run

/-!
# The timers of AODV - Proofs

`RecentRREQ_timer` is given to two handlers, and the second one takes it over before the first has run.
-/

namespace Aodv

open Engine Function

/-! ## One-shot timers -/

/-- The list holds the running timers, and none of them is periodic. -/
structure OneShot (s : Timers TimerName) : Prop where
  intact : Intact s
  perio : ∀ t, (s.obj t).callout_event.perio_ = 0

theorem OneShot.start {s s' : Timers TimerName} {t : TimerName} {time : Nat} (h : OneShot s)
    (hok : s.start t time 0 = .ok s') : OneShot s' ∧ s'.running = {x | x ∈ s.running ∨ x = t} := by
  obtain ⟨-, herr⟩ | ⟨-, s₁, hok₁, hh, -, hobj⟩ := start_spec h.intact.holds (fun hrun => hrun.1) time 0
  · rw [herr] at hok
    cases hok
  · obtain rfl : s₁ = s' := Except.ok.inj (hok₁.symm.trans hok)
    have hrun : s₁.running = {x | x ∈ s.running ∨ x = t} := by
      rw [running_update hobj]
      ext x
      by_cases hx : x = t <;> simp [hx, TimerObj.started]
    refine ⟨⟨⟨hrun ▸ hh, flag_update hobj h.intact.flag (h.intact.flag t)⟩, fun x => ?_⟩, hrun⟩
    by_cases hx : x = t
    · subst hx
      simp [hobj, TimerObj.started]
    · simpa [hobj, hx] using h.perio x

theorem OneShot.deqtimer {s s' : Timers TimerName} {t : TimerName} (h : OneShot s)
    (hok : s.deqtimer = .ok (t, s')) : OneShot s' ∧ s'.running = {x | x ∈ s.running ∧ x ≠ t} := by
  cases hhead : s.timerHead_ with
  | none => simp [Timers.deqtimer, Timers.dequeue_timer, hhead] at hok
  | some x =>
    obtain ⟨-, -, ⟨-, herr⟩ | ⟨-, s₁, hdeq, hh, hobj, -⟩⟩ := deqtimer_spec h.intact.holds hhead
    · rw [herr] at hok
      cases hok
    · obtain ⟨-, hre, hh'⟩ | ⟨hpos, -⟩ := rearm_spec hh (fun hx => hx.2 rfl) (hobj ▸ h.intact.flag x)
      · rw [hdeq, hre] at hok
        obtain ⟨rfl, rfl⟩ := Prod.mk.inj (Except.ok.inj hok)
        have hupd : (s₁.init x).obj = update s.obj x
            { s.obj x with busy_ := false, paused_ := false, rtime_ := 0 } := by
          simp [Timers.init, Timers.setObj, hobj]
        have hrun : (s₁.init x).running = {y | y ∈ s.running ∧ y ≠ x} := by
          rw [running_update hupd]
          simp
        refine ⟨⟨⟨hrun ▸ hh', flag_update hupd h.intact.flag (h.intact.flag x)⟩, fun y => ?_⟩, hrun⟩
        by_cases hy : y = x
        · subst hy
          simpa [hupd] using h.perio y
        · simpa [hupd, hy] using h.perio y
      · rw [hobj, h.perio x] at hpos
        exact absurd hpos (Nat.lt_irrefl 0)

theorem OneShot.setTime {s : Timers TimerName} (h : OneShot s) (now : Nat) :
    OneShot { s with currentTime_ := now } :=
  ⟨⟨h.intact.holds.setTime now, h.intact.flag⟩, h.perio⟩

/-! ## What the timers call -/

namespace Node

variable {cfg : Config} {p : Periods} {n n' : Node} {t : TimerName} {h : Handler} {time : Nat}

theorem arm_spec (hn : OneShot n.timers) (hok : n.arm t h time = .ok n') :
    OneShot n'.timers ∧ n'.timers.running = {x | x ∈ n.timers.running ∨ x = t} ∧
      n'.callOut = update n.callOut t (some h) := by
  unfold arm at hok
  cases hstart : n.timers.start t time 0 with
  | error err =>
    rw [hstart] at hok
    cases hok
  | ok s =>
    rw [hstart] at hok
    obtain rfl := Except.ok.inj hok
    obtain ⟨hs, hrun⟩ := hn.start hstart
    exact ⟨hs, hrun, rfl⟩

/-- What a timer calls once `init` has returned. -/
def callsAfterInit : TimerName → Handler
  | .SendHello_timer => .sendHello
  | .RT_timer => .RTTimer
  | .SendRREQ_timer => .RREQ_retry
  | .RecentRREQ_timer => .CheckLinkFailList
  | .AccRREQ_RERR_timer => .ClearAccRREQ_RERR

theorem callsAfterInit_timer : (callsAfterInit t).timer = t := by cases t <;> rfl

/-- All timers run, and each calls the handler that it had at the end of `init`. -/
structure Wired (n : Node) : Prop where
  oneShot : OneShot n.timers
  running : ∀ t, t ∈ n.timers.running
  callOut : ∀ t, n.callOut t = some (callsAfterInit t)

theorem init_wired {currentTime_ : Nat} {addr : TimerName → Nat} {mip : Addr} {random : Nat}
    (hok : init p currentTime_ addr mip random = .ok n) : n.Wired := by
  unfold init at hok
  have hnew : OneShot (Timers.new currentTime_ addr) :=
    ⟨⟨⟨[], new_listed currentTime_ addr, fun x => by simp [Timers.running, Timers.new, TimerObj.new]⟩,
      fun _ => rfl⟩, fun _ => rfl⟩
  obtain ⟨n₁, hok₁, hok⟩ := Outcome.of_bind_eq_ok hok
  obtain ⟨h₁, hrun₁, hcall₁⟩ := arm_spec hnew hok₁
  obtain ⟨n₂, hok₂, hok⟩ := Outcome.of_bind_eq_ok hok
  obtain ⟨h₂, hrun₂, hcall₂⟩ := arm_spec h₁ hok₂
  obtain ⟨n₃, hok₃, hok⟩ := Outcome.of_bind_eq_ok hok
  obtain ⟨h₃, hrun₃, hcall₃⟩ := arm_spec h₂ hok₃
  obtain ⟨n₄, hok₄, hok⟩ := Outcome.of_bind_eq_ok hok
  obtain ⟨h₄, hrun₄, hcall₄⟩ := arm_spec h₃ hok₄
  obtain ⟨n₅, hok₅, hok⟩ := Outcome.of_bind_eq_ok hok
  obtain ⟨h₅, hrun₅, hcall₅⟩ := arm_spec h₄ hok₅
  obtain ⟨h₆, hrun₆, hcall₆⟩ := arm_spec h₅ hok
  refine ⟨h₆, fun t => ?_, fun t => ?_⟩
  · simp only [hrun₆, hrun₅, hrun₄, hrun₃, hrun₂, hrun₁, Set.mem_ofPred_eq]
    cases t <;> simp
  · rw [hcall₆, hcall₅, hcall₄, hcall₃, hcall₂, hcall₁]
    cases t <;> rfl

theorem Wired.expire {e : Env} {random : Nat} (hn : n.Wired) (hok : n.expire cfg p e random = .ok n') :
    n'.Wired := by
  unfold Node.expire at hok
  cases hdeq : n.timers.deqtimer with
  | error err =>
    rw [hdeq] at hok
    cases hok
  | ok x =>
    obtain ⟨t, s⟩ := x
    simp only [hdeq, hn.callOut t, Node.fire, callsAfterInit_timer] at hok
    obtain ⟨hs, hrun⟩ := hn.oneShot.deqtimer hdeq
    obtain ⟨hs', hrun', hcall⟩ := arm_spec hs hok
    refine ⟨hs', fun x => ?_, fun x => ?_⟩
    · -- the timer that expired is the one that is started
      rw [hrun', hrun]
      by_cases hx : x = t
      · exact .inr hx
      · exact .inl ⟨hn.running x, hx⟩
    · rw [hcall]
      by_cases hx : x = t
      · subst hx
        simp
      · simpa [hx] using hn.callOut x

theorem Wired.step {i : Input} (hn : n.Wired) (hok : n.step cfg p i = .ok n') : n'.Wired := by
  cases i with
  | call e c =>
    obtain rfl := Except.ok.inj hok
    exact ⟨hn.oneShot, hn.running, hn.callOut⟩
  | expire e random => exact hn.expire hok
  | deqheap timeStamp_ =>
    simp only [Node.step, Timers.call] at hok
    split at hok
    · cases hok
    · obtain rfl := Except.ok.inj hok
      exact ⟨hn.oneShot.setTime timeStamp_, hn.running, hn.callOut⟩

/-! ## Sweeps -/

theorem Wired.pending (hn : n.Wired) (t : TimerName) : n.Pending (callsAfterInit t) := by
  obtain ⟨l, hl, -, -, hmem⟩ := hn.oneShot.intact.listIntact
  exact ⟨l, hl, t, (hmem t).2 (hn.running t), hn.callOut t⟩

theorem Wired.not_pending (hn : n.Wired) : ¬ n.Pending .CheckRecentRREQ := by
  rintro ⟨-, -, t, -, hcall⟩
  rw [hn.callOut t] at hcall
  cases t <;> cases hcall

/-- **Sweeps.** After `init` no timer ever calls `CheckRecentRREQ`. -/
theorem run_not_maintained (currentTime_ : Nat) (addr : TimerName → Nat) (mip : Addr) (random : Nat)
    (hok : init p currentTime_ addr mip random = .ok n) (is : List Input) :
    Run.Always (step cfg p) (fun n => ¬ n.Maintained ∧ n.Pending .CheckLinkFailList) n is := by
  have hwired : Run.Always (step cfg p) Wired n is :=
    Run.Always.of_step (fun _ _ _ hn hstep => hn.step hstep) (init_wired hok) is
  exact hwired.mono fun m hm => ⟨fun hmain => hm.not_pending hmain.1, hm.pending .RecentRREQ_timer⟩

/-- A node that has just been initialised, and runs until its timers have expired some times. -/
theorem run_not_maintained_init : ∃ n, init .defaults 0 (fun _ => 0) 1 7 = .ok n ∧
    Run.Always (step .defaults .defaults) (fun n => ¬ n.Maintained ∧ n.Pending .CheckLinkFailList) n
      (List.replicate 8 (.expire ⟨0, fun _ => false, 0, 0, 0⟩ 4)) :=
  ⟨_, rfl, run_not_maintained 0 (fun _ => 0) 1 7 rfl _⟩

/-- `init` itself ends with one of the two handlers pending. -/
theorem init_not_maintained : ¬ ∀ (p : Periods) (random : Nat) (n : Node),
    init p 0 (fun _ => 0) 1 random = .ok n → n.Maintained := by
  intro hall
  obtain ⟨n, hn⟩ : ∃ n, init .defaults 0 (fun _ => 0) 1 7 = .ok n := ⟨_, rfl⟩
  have hmain := hall .defaults 7 n hn
  exact (init_wired hn).not_pending hmain.1

end Node

end Aodv
