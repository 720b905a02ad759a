import Nctuns.Dsdv.Dsdvd

/-!
# A DSDV node and what it announces

One node by itself: an advertisement arrives, whatever is in it, or the timer of the regular
advertisements goes off.
-/

namespace Dsdv

variable {N : Type*}

/-- An advertisement arrives, or the timer expires. -/
inductive Input (N : Type*) where
  | advPkt (now : Nat) (advert : Advert N) (junk : List (RtUnit N))
  | timer (now : Nat) (junk : List (RtUnit N))

namespace Input

/-- The time of an input. -/
def now : Input N → Nat
  | .advPkt now _ _ => now
  | .timer now _ => now

/-- What is in memory behind the rows of the table. -/
def junk : Input N → List (RtUnit N)
  | .advPkt _ _ junk => junk
  | .timer _ junk => junk

/-- The rows of an advertisement have distinct destinations. -/
def Distinct : Input N → Prop
  | .advPkt _ advert _ => (advert.units.map (·.dst)).Nodup
  | .timer _ _ => True

instance [DecidableEq N] : (i : Input N) → Decidable i.Distinct
  | .advPkt _ advert _ => inferInstanceAs (Decidable (advert.units.map (·.dst)).Nodup)
  | .timer _ _ => .isTrue trivial

end Input

/-- A destination that is its own next hop, with a finite metric. -/
def RtUnit.Neighbour (r : RtUnit N) : Prop := r.dst = r.nextHop ∧ r.metric < BIG

instance [DecidableEq N] (r : RtUnit N) : Decidable r.Neighbour := inferInstanceAs (Decidable (_ ∧ _))

namespace DSDVd

variable [DecidableEq N]

/-- The node after an input, with the advertisements that it sends. -/
def handle (s : DSDVd N) : Input N → Except Fault (DSDVd N × List (Advert N))
  | .advPkt now advert junk => s.recvAdvPkt now advert junk
  | .timer now junk => s.sendAdvPktRegular now junk

/-- The node after an input. -/
def step (s : DSDVd N) (i : Input N) : Except Fault (DSDVd N) := (s.handle i).map Prod.fst

/-- The node as the loop over the table finds it. -/
def found (s : DSDVd N) : Input N → DSDVd N
  | .advPkt now advert _ => advert.units.foldl (update now advert.from_) s
  | .timer now _ => s.renew now

/-- The node once the loop over the table is through. -/
def labelled (s : DSDVd N) (now : Nat) : DSDVd N :=
  { s with
    rows := s.rows.map (s.labelUnit now)
    now_counter := s.now_counter + s.rows.countP fun r => s.Dies now r }

/-! ## The counter -/

/-- If `sendAdvPktNow` runs, `now_counter` is the number of entries behind the first one that need to
    be advertised now, and the advertisement has the first one and exactly these. -/
def Counted (s : DSDVd N) (i : Input N) : Prop :=
  ((s.found i).labelled i.now).now_counter > 0 →
    ((s.found i).labelled i.now).now_counter =
        ((s.found i).labelled i.now).rows.tail.countP (fun r => r.need_adv_now) ∧
      ∀ junk, ∃ t, ((s.found i).labelled i.now).sendAdvPktNow junk = .ok (t, ⟨s.mip,
        ((s.found i).labelled i.now).rows.take 1 ++
          ((s.found i).labelled i.now).rows.tail.filter fun r => r.need_adv_now⟩)

/-- When an advertisement arrives, the first entry is not older than `expire_time_out_`. -/
def FirstYoung (s : DSDVd N) : Input N → Prop
  | .advPkt now _ _ => ∀ r ∈ s.rows.head?, age now r ≤ s.expire_time_out_
  | .timer _ _ => True

instance (s : DSDVd N) : (i : Input N) → Decidable (s.FirstYoung i)
  | .advPkt now _ _ => inferInstanceAs (Decidable (∀ r ∈ s.rows.head?, age now r ≤ s.expire_time_out_))
  | .timer _ _ => .isTrue trivial

/-! ## The death of a neighbour -/

/-- An advertisement goes out at once that has an entry with `P`. -/
def Announced (s : DSDVd N) (i : Input N) (P : RtUnit N → Prop) : Prop :=
  ∃ t adverts, (s.found i).selfCheck i.now i.junk = .ok (t, adverts) ∧
    ∃ advert ∈ adverts, ∃ u ∈ advert.units, P u

/-- A neighbour that is found too old is announced with the metric `BIG` and the next number, and an
    entry for a neighbour is not deleted without such an announcement. -/
def AnnouncesDeaths (s : DSDVd N) (i : Input N) : Prop :=
  (∀ r ∈ (s.found i).rows, r.Neighbour → age i.now r > s.expire_time_out_ →
    s.Announced i fun u => u.dst = r.dst ∧ u.metric = BIG ∧ u.num = r.num + 1) ∧
  ∀ r ∈ s.rows, r.Neighbour →
    (∃ t, s.step i = .ok t ∧ ∃ q ∈ t.rows, q.dst = r.dst) ∨
      s.Announced i fun u => u.dst = r.dst ∧ u.metric = BIG

/-- No neighbour that is found too old has been reported dead before, and the first entry, which
    `sendAdvPktRegular` writes over, is not that of another neighbour. -/
def FirstDeaths (s : DSDVd N) (i : Input N) : Prop :=
  (∀ r ∈ (s.found i).rows, r.Neighbour → age i.now r > s.expire_time_out_ → r.already_bcast = false) ∧
  match i with
  | .advPkt _ _ _ => True
  | .timer _ _ => ∀ r ∈ s.rows.head?, r.Neighbour → r.dst = s.mip

instance (s : DSDVd N) : (i : Input N) → Decidable (s.FirstDeaths i)
  | .advPkt _ _ _ => inferInstanceAs (Decidable (_ ∧ True))
  | .timer _ _ => inferInstanceAs (Decidable (_ ∧ ∀ r ∈ s.rows.head?, r.Neighbour → r.dst = s.mip))

end DSDVd

end Dsdv
