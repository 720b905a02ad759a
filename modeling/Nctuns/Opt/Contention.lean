import Nctuns.Opt.Obsw

/-!
# Control packets of one tick

What `deal_control_pkt_with_same_arrive_time` is for: the bursts of one tick are put one behind the
other where they have a wavelength of a port in common, and each keeps to its own time.
-/

namespace Opt

/-- The time for which the burst asks, from the control packet on. -/
def Controlpkt.interval (c : Controlpkt) : Set Nat := Set.Ico c.offset (c.offset + c.reserve_dur)

namespace Obsw

/-- The numbers that are taken from those drawn: `random_history` keeps those taken before, up to 100 of
    them. -/
def taken (number : Nat) : (random_history : List Nat) → (draws : List Nat) → List Nat
  | _, [] => []
  | random_history, draw :: draws =>
    if draw % number ∈ random_history then taken number random_history draws
    else draw % number :: taken number (draw % number :: random_history) draws

/-- The control packets of the tick of `b`. -/
def group (s : Obsw) (b : Burst) : List Controlpkt :=
  s.contrlpkts.filter fun c => SameTick (s.found_arrive_time b) c

/-- The record is in its group, before or after. -/
def InGroup (s : Obsw) (b : Burst) (c : Controlpkt) : Prop := c.id ∈ (s.group b).map Controlpkt.id

instance (s : Obsw) (b : Burst) (c : Controlpkt) : Decidable (s.InGroup b c) :=
  inferInstanceAs (Decidable (_ ∈ _))

/-- The records of the burst of a control packet, which may be on another wavelength than itself. -/
def Of (c : Controlpkt) (r : Datapacket) : Prop :=
  c.burstid = r.burstid ∧ c.src = r.src ∧ c.dst = r.dst ∧ c.nextport = r.nextport

/-- The routine is called for a control packet that is in a tick of up to 100, and numbers are drawn until
    each has come. -/
structure Called (s : Obsw) (b : Burst) (draws : List Nat) : Prop where
  unfound : ∃ c ∈ s.contrlpkts, c.have_found = false ∧ c.toBurst = b
  number : s.number_of_same_arrive_time b ≤ 100
  draws : s.select_candidate_method = .random →
    ∀ k < s.number_of_same_arrive_time b, ∃ draw ∈ draws, draw % s.number_of_same_arrive_time b = k

/-- What the routine should have done from `s` to `t`. -/
structure Resolved (s t : Obsw) (b : Burst) : Prop where
  /-- There are as many choices as control packets, and each has been chosen. -/
  selected : 1 < (s.group b).length → ∀ c ∈ t.contrlpkts, s.InGroup b c → c.update = true
  disjoint : (t.contrlpkts.filter fun c => s.InGroup b c).Pairwise fun c d =>
    c.nextport = d.nextport → c.wavelength = d.wavelength → Disjoint c.interval d.interval
  inside : ∀ c ∈ s.group b, ∀ d ∈ t.contrlpkts, d.id = c.id →
    c.offset ≤ d.offset ∧ d.offset + d.reserve_dur ≤ c.offset + c.reserve_dur ∧
      (d.reserve_dur ≠ 0 → d.offset + d.reserve_dur = c.offset + c.reserve_dur)
  records : List.Forall₂ (fun r r' =>
    (∀ c ∈ s.group b, ∀ d ∈ t.contrlpkts, d.id = c.id →
      (d.offset ≠ c.offset ∨ d.reserve_dur ≠ c.reserve_dur) → Of c r →
        r'.start_transmit_time = r.node_current_time + d.offset ∧
          r'.end_transmit_time = r.node_current_time + d.offset + d.reserve_dur) ∧
    ((∀ c ∈ s.group b, ∀ d ∈ t.contrlpkts, d.id = c.id →
      (d.offset ≠ c.offset ∨ d.reserve_dur ≠ c.reserve_dur) → ¬ Of c r) → r' = r)) s.datapkts t.datapkts

/-- With these draws the contention of the tick ends, and it ends as the method says. -/
def Resolves (s : Obsw) (b : Burst) (draws : List Nat) : Prop :=
  ∃ t, s.deal_control_pkt_with_same_arrive_time b (taken (s.number_of_same_arrive_time b) [] draws) = .ok t ∧
    s.Resolved t b

/-- The later of two chosen bursts need not be moved for the earlier one, or contends with it on no
    wavelength. The routine does not compare bursts of one number. -/
def Behind (c d : Controlpkt) : Prop :=
  c.nextport = d.nextport → c.wavelength = d.wavelength →
    if c.burstid = d.burstid then
      min (c.offset + c.reserve_dur) (d.offset + d.reserve_dur) ≤ max c.offset d.offset
    else c.offset + c.reserve_dur ≤ d.offset

instance (c d : Controlpkt) : Decidable (Behind c d) := inferInstanceAs (Decidable (_ → _ → _))

/-- There is nothing to choose, or, at a tick other than 0, the bursts are drawn in an order in which none
    has to be moved. -/
def Peaceful (s : Obsw) (b : Burst) (draws : List Nat) : Prop :=
  (s.group b).length ≤ 1 ∨ s.found_arrive_time b ≠ 0 ∧ s.select_candidate_method = .random ∧
    ((taken (s.group b).length [] draws).filterMap fun k => (s.group b)[k]?).Pairwise Behind

instance (s : Obsw) (b : Burst) (draws : List Nat) : Decidable (s.Peaceful b draws) :=
  inferInstanceAs (Decidable (_ ∨ _))

end Obsw

end Opt
