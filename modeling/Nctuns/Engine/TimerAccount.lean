import Nctuns.Engine.Timer

/-!
# What a timer is granted

A one-shot timer counts the clock while it is not paused. It is due when that comes to the time it was
started with and the times that were added when it was resumed.
-/

namespace Engine

variable {τ : Type*}

/-- The timers, with the books on one of them while it is `live`: the clock time that it has not been
    paused, and the time it was granted. `expiries` has both for each time that it expired. -/
structure TimerAccount (τ : Type*) where
  timers : Timers τ
  live : Bool
  unpaused : Nat
  granted : Nat
  expiries : List (Nat × Nat)

namespace TimerAccount

/-- No timer is running. -/
def new (currentTime_ : Nat) (addr : τ → Nat) : TimerAccount τ where
  timers := .new currentTime_ addr
  live := false
  unpaused := 0
  granted := 0
  expiries := []

/-- The time without a pause when the clock goes on to `now`. -/
def unpausedAt (a : TimerAccount τ) (t : τ) (now : Nat) : Nat :=
  if (a.timers.obj t).paused_ then a.unpaused else a.unpaused + (now - a.timers.currentTime_)

variable [DecidableEq τ]

/-- The books on `t` after a call that left the timers as `s`. -/
def enter (a : TimerAccount τ) (t : τ) (s : Timers τ) : TimerCall τ → TimerAccount τ
  | .start u time pero =>
    if u = t then { a with timers := s, live := pero = 0, unpaused := 0, granted := time }
    else { a with timers := s }
  | .cancel u => if u = t then { a with timers := s, live := false } else { a with timers := s }
  | .resumeBy u time =>
    if u = t then { a with timers := s, granted := a.granted + time } else { a with timers := s }
  | .pause _ | .resume _ => { a with timers := s }
  | .deqheap _ => { a with timers := s, unpaused := a.unpausedAt t s.currentTime_ }
  | .deqtimer =>
    if a.timers.timerHead_ = some t ∧ a.live = true then { a with
      timers := s
      live := false
      expiries := (a.unpausedAt t s.currentTime_, a.granted) :: a.expiries }
    else { a with timers := s, unpaused := a.unpausedAt t s.currentTime_ }

variable [Fintype τ]

/-- A call of the timers, with the account of the timer `t`. -/
def call (t : τ) (a : TimerAccount τ) (c : TimerCall τ) : Except Halt (TimerAccount τ) :=
  match a.timers.call c with
  | .ok s => .ok (a.enter t s c)
  | .error e => .error e

omit [DecidableEq τ] [Fintype τ] in
/-- The timer has expired when its time was up, and while it runs it is in the list, to expire when its
    time will be up. -/
structure OnTime (t : τ) (a : TimerAccount τ) : Prop where
  expired : ∀ e ∈ a.expiries, e.1 = e.2
  due : a.live = true → (a.timers.obj t).paused_ = false →
    a.timers.ts t + a.unpaused = a.timers.currentTime_ + a.granted
  listed : a.live = true → (a.timers.obj t).paused_ = false →
    ∃ l, PtrChain.IsChain a.timers.next_ep a.timers.timerHead_ l ∧ t ∈ l

omit [DecidableEq τ] [Fintype τ] in
/-- A timestamp of `t` does not wrap, and a `pause` of `t` while it is paused computes the time that is
    left once more to the same value. The clock does not pass the first timer, as the scheduler picks
    what is due first. -/
def Counts (t : τ) (a : TimerAccount τ) : TimerCall τ → Prop
  | .start u time _ => u = t → a.timers.currentTime_ + time < 2 ^ 64
  | .resumeBy u time => u = t → a.timers.currentTime_ + time + (a.timers.obj t).rtime_ < 2 ^ 64
  | .resume u => u = t → a.timers.currentTime_ + (a.timers.obj t).rtime_ < 2 ^ 64
  | .pause u => u = t → (a.timers.obj t).paused_ = true →
      (a.timers.obj t).rtime_ = a.timers.ts t - a.timers.currentTime_
  | .deqheap now => ∀ u ∈ a.timers.timerHead_, now ≤ a.timers.ts u
  | _ => True

omit [Fintype τ] in
instance (t : τ) (a : TimerAccount τ) : (c : TimerCall τ) → Decidable (a.Counts t c)
  | .start .. | .resumeBy .. | .resume .. => inferInstanceAs (Decidable (_ → _ < _))
  | .pause u => inferInstanceAs (Decidable (u = t → _ = true → _ = _))
  | .deqheap _ => inferInstanceAs (Decidable (∀ u ∈ a.timers.timerHead_, _ ≤ a.timers.ts u))
  | .cancel .. | .deqtimer => .isTrue trivial

omit [DecidableEq τ] [Fintype τ] in
/-- The call counts right, and it leaves the list intact. -/
def Regular (t : τ) (a : TimerAccount τ) (c : TimerCall τ) : Prop :=
  a.Counts t c ∧ ResumesPaused a.timers c ∧ ReturnsToList a.timers c

omit [Fintype τ] in
instance (t : τ) (a : TimerAccount τ) (c : TimerCall τ) : Decidable (a.Regular t c) :=
  inferInstanceAs (Decidable (_ ∧ _ ∧ _))

end TimerAccount

end Engine
