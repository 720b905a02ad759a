import Nctuns.Mac.Mac8023

/-!
# The 802.3 MAC tries every frame again

No assertion fails in any run. A frame waits in the idle state with no timer pending exactly when a
collision ends the reception of another one.
-/

namespace Mac

namespace Mac8023

variable {p : Mac8023Config} {s : Mac8023}

/-- The state says which timers are pending, and `busy` whether one of the sender is. -/
structure Sound (p : Mac8023Config) (s : Mac8023) : Prop where
  jam : s.macState ≠ .MAC_JAM ∧ s.jamTimer = none
  tx : s.txTimer ≠ none ↔ s.macState = .MAC_SEND
  rx : s.rxTimer ≠ none ↔ s.macState = .MAC_RECV
  IFS : s.IFSTimer ≠ none ↔ s.macState = .MAC_IFS
  pktRx : s.pktRx ≠ none ↔ s.macState = .MAC_RECV
  retx : s.retxTimer ≠ none → s.pktRetx ≠ none ∧ (s.macState = .MAC_IDLE ∨ s.macState = .MAC_RECV)
  held : s.macState = .MAC_SEND ∨ s.macState = .MAC_IFS → s.pktRetx ≠ none
  busy : s.busy = true ↔ s.macState = .MAC_SEND ∨ s.macState = .MAC_IFS ∨ s.retxTimer ≠ none
  ifsTime : ∀ e ∈ s.IFSTimer, e = s.IFSStartTick + p.IFS ∧ s.now ≤ e ∧ s.IFSStartTick ≤ s.now

/-- Nothing is sent or received. -/
structure AtRest (s : Mac8023) : Prop where
  tx : s.txTimer = none
  rx : s.rxTimer = none
  IFS : s.IFSTimer = none
  jam : s.jamTimer = none
  pktRx : s.pktRx = none
  retx : s.retxTimer ≠ none → s.pktRetx ≠ none
  busy : s.busy = true ↔ s.retxTimer ≠ none

/-- The step does not fail and ends in a sound state, in which a held frame does not wait for ever. -/
def Goes (p : Mac8023Config) (r : Except Halt Mac8023) : Prop :=
  ∃ s', r = .ok s' ∧ s'.Sound p ∧ s'.Waits

theorem AtRest.sound (h : s.AtRest) (hidle : s.macState = .MAC_IDLE) : s.Sound p where
  jam := ⟨by rw [hidle]; decide, h.jam⟩
  tx := by simp [h.tx, hidle]
  rx := by simp [h.rx, hidle]
  IFS := by simp [h.IFS, hidle]
  pktRx := by simp [h.pktRx, hidle]
  retx hretx := ⟨h.retx hretx, Or.inl hidle⟩
  held hstate := by simp [hidle] at hstate
  busy := by simp [h.busy, hidle]
  ifsTime e he := by simp [h.IFS] at he

/-- `_send` in the idle state starts the interframe space, unless the backoff goes on. -/
theorem AtRest.send (h : s.AtRest) (hidle : s.macState = .MAC_IDLE) (hheld : s.pktRetx ≠ none) :
    Goes p (s._send p) := by
  unfold _send
  by_cases hretx : s.retxTimer = none
  · have hbusy : ¬ s.busy = true := by rw [h.busy, hretx]; exact not_not_intro rfl
    rw [if_neg (by simp [hidle, h.IFS, hretx]), if_neg (by rw [hidle]; decide), IFSScheduler,
      if_neg hbusy]
    refine ⟨_, rfl, ?_, fun _ hstate => by cases hstate⟩
    constructor <;> simp [h.tx, h.rx, h.jam, h.pktRx, hretx, hheld]
  · rw [if_pos (Or.inr (Or.inr hretx))]
    exact ⟨s, rfl, h.sound hidle, fun _ _ => Or.inr hretx⟩

theorem AtRest.resume (h : s.AtRest) : Goes p (s.resume p) := by
  have hidle : AtRest { s with macState := .MAC_IDLE } := ⟨h.tx, h.rx, h.IFS, h.jam, h.pktRx, h.retx, h.busy⟩
  unfold Mac8023.resume
  rw [if_neg (by simp [h.tx, h.rx, h.IFS, h.pktRx])]
  by_cases hsend : s.pktRetx ≠ none ∧ s.retxTimer = none
  · simp only
    rw [if_pos hsend]
    exact hidle.send rfl hsend.1
  · simp only
    rw [if_neg hsend]
    refine ⟨_, rfl, hidle.sound rfl, ?_⟩
    intro hheld _
    by_contra hnone
    exact hsend ⟨hheld, by_contra fun hretx => hnone (Or.inr hretx)⟩

theorem AtRest.resetResume (h : s.AtRest) (hretx : s.retxTimer = none) : Goes p (s.resetResume p) := by
  have hbusy : ¬ s.busy = true := by rw [h.busy, hretx]; exact not_not_intro rfl
  unfold Mac8023.resetResume retxReset
  rw [if_neg hbusy]
  exact AtRest.resume ⟨h.tx, h.rx, h.IFS, h.jam, h.pktRx, fun h => absurd hretx h,
    by simp [hbusy, hretx]⟩

/-- The backoff, or the end of the attempts. -/
theorem AtRest.retxScheduler (h : s.AtRest) (hidle : s.macState = .MAC_IDLE) (hretx : s.retxTimer = none)
    (hheld : s.pktRetx ≠ none) (rand : Nat) : Goes p (s.retxScheduler p rand) := by
  have hbusy : ¬ s.busy = true := by rw [h.busy, hretx]; exact not_not_intro rfl
  unfold Mac8023.retxScheduler
  rw [if_neg (by simp [hheld, hbusy])]
  by_cases hlimit : s.retxCnt < IEEE_8023_ALIMIT
  · rw [if_pos hlimit]
    refine ⟨_, rfl, AtRest.sound ⟨h.tx, h.rx, h.IFS, h.jam, h.pktRx, fun _ => hheld, ?_⟩ hidle,
      fun _ _ => Or.inr (Option.some_ne_none _)⟩
    simp
  · rw [if_neg hlimit]
    exact h.resetResume hretx

namespace Sound

theorem timers_idle (h : s.Sound p) (hidle : s.macState = .MAC_IDLE) : s.AtRest where
  tx := by_contra fun htx => absurd (h.tx.1 htx) (by simp [hidle])
  rx := by_contra fun hrx => absurd (h.rx.1 hrx) (by simp [hidle])
  IFS := by_contra fun hifs => absurd (h.IFS.1 hifs) (by simp [hidle])
  jam := h.jam.2
  pktRx := by_contra fun hpkt => absurd (h.pktRx.1 hpkt) (by simp [hidle])
  retx hretx := (h.retx hretx).1
  busy := by simp [h.busy, hidle]

/-- `_send` with a frame held. -/
theorem _send (h : s.Sound p) (hheld : s.pktRetx ≠ none) : Goes p (s._send p) := by
  by_cases hidle : s.macState = .MAC_IDLE
  · exact (h.timers_idle hidle).send hidle hheld
  · unfold Mac8023._send
    rw [if_pos (Or.inl hidle)]
    exact ⟨s, rfl, h, fun _ hstate => absurd hstate hidle⟩

theorem send (h : s.Sound p) (pkt : Frame) : Goes p (s.send p pkt) := by
  unfold Mac8023.send
  by_cases hheld : s.pktRetx ≠ none
  · rw [if_pos hheld]
    exact h._send hheld
  · rw [if_neg hheld]
    refine Sound._send ⟨h.jam, h.tx, h.rx, h.IFS, h.pktRx, ?_, ?_, h.busy, h.ifsTime⟩
      (Option.some_ne_none _)
    · intro hretx
      exact ⟨Option.some_ne_none _, (h.retx hretx).2⟩
    · intro _
      exact Option.some_ne_none _

/-- A collision in any state but the idle one. -/
theorem collision (h : s.Sound p) (hbusy : s.macState ≠ .MAC_IDLE) (rand : Nat) :
    ∃ s', s.collision p rand = .ok s' ∧ s'.Sound p ∧
      (s'.Waits ↔ (s.macState = .MAC_RECV → s.pktRetx ≠ none → s.retxTimer ≠ none)) := by
  have hjam := h.jam.2
  unfold Mac8023.collision
  cases hstate : s.macState with
  | MAC_IDLE => exact absurd hstate hbusy
  | MAC_JAM => exact absurd hstate h.jam.1
  | MAC_SEND =>
    have htx := h.tx.2 hstate
    have hheld := h.held (Or.inl hstate)
    have hrx : s.rxTimer = none := by_contra fun hrx => absurd (h.rx.1 hrx) (by simp [hstate])
    have hifs : s.IFSTimer = none := by_contra fun hifs => absurd (h.IFS.1 hifs) (by simp [hstate])
    have hpkt : s.pktRx = none := by_contra fun hpkt => absurd (h.pktRx.1 hpkt) (by simp [hstate])
    have hretx : s.retxTimer = none :=
      by_contra fun hretx => absurd (h.retx hretx).2 (by simp [hstate])
    have hflag : ¬ (s.txTimer ≠ none ∧ s.busy = false) := by
      rintro ⟨-, hfalse⟩
      rw [h.busy.2 (Or.inl hstate)] at hfalse
      cases hfalse
    simp only
    rw [if_neg hflag, if_pos htx]
    obtain ⟨s', hs', hsound, hwaits⟩ := AtRest.retxScheduler (p := p) (s := { s with
        txTimer := none
        busy := false
        macState := .MAC_IDLE }) ⟨rfl, hrx, hifs, hjam, hpkt, fun h => absurd hretx h, by simp [hretx]⟩ rfl
      hretx hheld rand
    exact ⟨s', hs', hsound, fun _ h => by simp at h, fun _ => hwaits⟩
  | MAC_RECV =>
    have htx : s.txTimer = none := by_contra fun htx => absurd (h.tx.1 htx) (by simp [hstate])
    have hifs : s.IFSTimer = none := by_contra fun hifs => absurd (h.IFS.1 hifs) (by simp [hstate])
    refine ⟨_, rfl, AtRest.sound ⟨htx, rfl, hifs, hjam, rfl, fun hretx => (h.retx hretx).1, ?_⟩ rfl,
      ?_, ?_⟩
    · simp [h.busy, hstate]
    · intro hwaits _ hheld
      exact (hwaits hheld rfl).resolve_left (not_not_intro hifs)
    · intro hspared hheld _
      exact Or.inr (hspared rfl hheld)
  | MAC_IFS =>
    have hheld := h.held (Or.inr hstate)
    have htx : s.txTimer = none := by_contra fun htx => absurd (h.tx.1 htx) (by simp [hstate])
    have hrx : s.rxTimer = none := by_contra fun hrx => absurd (h.rx.1 hrx) (by simp [hstate])
    have hpkt : s.pktRx = none := by_contra fun hpkt => absurd (h.pktRx.1 hpkt) (by simp [hstate])
    have hretx : s.retxTimer = none :=
      by_contra fun hretx => absurd (h.retx hretx).2 (by simp [hstate])
    simp only
    by_cases hfront : s.now - s.IFSStartTick ≤ p.IFS * 2 / 3
    · rw [if_pos hfront]
      obtain ⟨s', hs', hsound, hwaits⟩ := AtRest.send (p := p) (s := { s with
          IFSTimer := none
          busy := false
          macState := .MAC_IDLE }) ⟨htx, hrx, rfl, hjam, hpkt, fun h => absurd hretx h, by simp [hretx]⟩
        rfl hheld
      exact ⟨s', hs', hsound, fun _ h => by simp at h, fun _ => hwaits⟩
    · obtain ⟨e, he⟩ := Option.ne_none_iff_exists'.1 (h.IFS.2 hstate)
      obtain ⟨hend, hnow, hstart⟩ := h.ifsTime e he
      rw [if_neg hfront, if_pos (by omega)]
      refine ⟨s, rfl, h, fun _ h => by simp at h, fun _ _ hidle => ?_⟩
      rw [hstate] at hidle
      cases hidle

theorem recv (h : s.Sound p) (pkt : Frame) (rand : Nat) :
    ∃ s', s.recv p pkt rand = .ok s' ∧ s'.Sound p ∧ (s'.Waits ↔ s.Spared (.recv pkt rand)) := by
  unfold Mac8023.recv
  by_cases hidle : s.macState = .MAC_IDLE
  · have hrest := h.timers_idle hidle
    rw [if_pos hidle]
    refine ⟨_, rfl, ?_, fun _ hrecv => ?_, fun _ _ hstate => by cases hstate⟩
    · constructor <;> simp [hrest.tx, hrest.IFS, hrest.jam, hrest.busy]
      exact hrest.retx
    · rw [hidle] at hrecv
      cases hrecv
  · rw [if_neg hidle]
    exact h.collision hidle rand

theorem nextExpiry_le {e : Nat} (he : s.IFSTimer = some e) (t : Nat) : s.nextExpiry t ≤ e := by
  simp only [nextExpiry, List.foldl_cons, List.foldl_nil, he, Option.getD_some]
  omega

theorem elapse (h : s.Sound p) (ticks : Nat) :
    Sound p { s with now := max s.now (s.nextExpiry (s.now + ticks)) } := by
  refine ⟨h.jam, h.tx, h.rx, h.IFS, h.pktRx, h.retx, h.held, h.busy, ?_⟩
  intro e he
  obtain ⟨hend, hnow, hstart⟩ := h.ifsTime e he
  have hle := nextExpiry_le (s := s) he (s.now + ticks)
  refine ⟨hend, Nat.max_le.2 ⟨hnow, hle⟩, Nat.le_trans hstart (Nat.le_max_left _ _)⟩

/-- The handler of a pending timer. -/
theorem handler (h : s.Sound p) {timer : MacTimer} (hpending : s.timer timer ≠ none) (rand : Nat) :
    Goes p (s.handler p rand timer) := by
  have hjam := h.jam.2
  cases timer with
  | jam => exact absurd hjam hpending
  | tx =>
    have hstate := h.tx.1 hpending
    have hheld := h.held (Or.inl hstate)
    have hrx : s.rxTimer = none := by_contra fun hrx => absurd (h.rx.1 hrx) (by simp [hstate])
    have hifs : s.IFSTimer = none := by_contra fun hifs => absurd (h.IFS.1 hifs) (by simp [hstate])
    have hpkt : s.pktRx = none := by_contra fun hpkt => absurd (h.pktRx.1 hpkt) (by simp [hstate])
    have hretx : s.retxTimer = none :=
      by_contra fun hretx => absurd (h.retx hretx).2 (by simp [hstate])
    unfold Mac8023.handler txHandler
    simp only
    rw [if_neg hheld]
    exact AtRest.resetResume ⟨rfl, hrx, hifs, hjam, hpkt, fun h => absurd hretx h, by simp [hretx]⟩ hretx
  | rx =>
    have hstate := h.rx.1 hpending
    have htx : s.txTimer = none := by_contra fun htx => absurd (h.tx.1 htx) (by simp [hstate])
    have hifs : s.IFSTimer = none := by_contra fun hifs => absurd (h.IFS.1 hifs) (by simp [hstate])
    obtain ⟨pkt, hpkt⟩ := Option.ne_none_iff_exists'.1 (h.pktRx.2 hstate)
    have hbusy : s.busy = true ↔ s.retxTimer ≠ none := by simp [h.busy, hstate]
    unfold Mac8023.handler rxHandler
    simp only [hpkt]
    unfold recvComplete
    rw [if_neg (by simp [htx])]
    split
    · exact AtRest.resume ⟨htx, rfl, hifs, hjam, rfl, fun hretx => (h.retx hretx).1, hbusy⟩
    · exact AtRest.resume ⟨htx, rfl, hifs, hjam, rfl, fun hretx => (h.retx hretx).1, hbusy⟩
  | retx =>
    obtain ⟨hheld, hstate⟩ := h.retx hpending
    have hbusy := h.busy.2 (Or.inr (Or.inr hpending))
    unfold Mac8023.handler retxHandler
    simp only
    rw [if_neg (by simp [hheld, hbusy])]
    refine Sound._send ⟨h.jam, h.tx, h.rx, h.IFS, h.pktRx, fun hretx => absurd rfl hretx, h.held, ?_,
      h.ifsTime⟩ hheld
    rcases hstate with hstate | hstate <;> simp [hstate]
  | IFS =>
    have hstate := h.IFS.1 hpending
    have htx : s.txTimer = none := by_contra fun htx => absurd (h.tx.1 htx) (by simp [hstate])
    have hrx : s.rxTimer = none := by_contra fun hrx => absurd (h.rx.1 hrx) (by simp [hstate])
    have hpkt : s.pktRx = none := by_contra fun hpkt => absurd (h.pktRx.1 hpkt) (by simp [hstate])
    have hretx : s.retxTimer = none :=
      by_contra fun hretx => absurd (h.retx hretx).2 (by simp [hstate])
    obtain ⟨pkt, hheld⟩ := Option.ne_none_iff_exists'.1 (h.held (Or.inr hstate))
    unfold Mac8023.handler IFSHandler __send
    simp only [hheld]
    unfold txScheduler
    simp only
    rw [if_neg (by decide)]
    refine ⟨_, rfl, ?_, fun _ hidle => by cases hidle⟩
    constructor <;> simp [hrx, hjam, hpkt, hretx]

end Sound

theorem init_sound (p : Mac8023Config) : init.Sound p := by
  constructor <;> simp [init]

/-- No step fails. A step that spares the waiting frame is one after which no frame waits for ever. -/
theorem step_sound (h : s.Sound p) (a : Mac8023Action) :
    ∃ s', s.step p a = .ok s' ∧ s'.Sound p ∧ (s.Waits → (s'.Waits ↔ s.Spared a)) := by
  cases a with
  | send pkt =>
    obtain ⟨s', hs', hsound, hwaits⟩ := h.send pkt
    exact ⟨s', hs', hsound, fun _ => ⟨fun _ => trivial, fun _ => hwaits⟩⟩
  | recv pkt rand =>
    obtain ⟨s', hs', hsound, hiff⟩ := h.recv pkt rand
    exact ⟨s', hs', hsound, fun _ => hiff⟩
  | elapse ticks => exact ⟨_, rfl, h.elapse ticks, fun hwaits => ⟨fun _ => trivial, fun _ => hwaits⟩⟩
  | expire timer rand =>
    have hstays : s.Waits → (s.Waits ↔ s.Spared (.expire timer rand)) :=
      fun hwaits => ⟨fun _ => trivial, fun _ => hwaits⟩
    cases htimer : s.timer timer with
    | none => exact ⟨s, by simp only [step, htimer], h, hstays⟩
    | some expiry =>
      by_cases hdue : expiry ≤ s.now
      · obtain ⟨s', hs', hsound, hwaits⟩ :=
          h.handler (show s.timer timer ≠ none by rw [htimer]; exact Option.some_ne_none _) rand
        refine ⟨s', ?_, hsound, fun _ => ⟨fun _ => trivial, fun _ => hwaits⟩⟩
        simp only [step, htimer, if_pos hdue, hs']
      · refine ⟨s, ?_, h, hstays⟩
        simp only [step, htimer, if_neg hdue]

/-- **The MAC never sticks.** In no run does an assertion fail, and a frame is always tried again exactly
    if no collision ends the reception of a frame while another one waits without a backoff. -/
theorem run_waits_iff (p : Mac8023Config) (acts : List Mac8023Action) :
    (∃ s, Run.exec (step p) init acts = .ok s) ∧
      (Run.Always (step p) Waits init acts ↔ Run.Along (step p) Spared init acts) := by
  constructor
  · exact Run.exec_ok_of_along (I := Sound p) (C := fun _ _ => True)
      (fun s a h _ => by
        obtain ⟨s', hs', hsound, -⟩ := step_sound h a
        exact ⟨s', hs', hsound⟩) (init_sound p) (Run.Along.true _ _)
  · refine Run.always_iff_along (I := fun s : Mac8023 => s.Sound p ∧ s.Waits) (D := fun _ _ => True) (fun _ h => h.2)
      ?_ ?_ ?_ ⟨init_sound p, fun h => absurd rfl h⟩ (Run.Along.true _ _)
    · rintro s a t ⟨h, hwaits⟩ - ht hspared
      obtain ⟨s', hs', hsound, hiff⟩ := step_sound h a
      rw [ht] at hs'
      obtain rfl : t = s' := Except.ok.inj hs'
      exact ⟨hsound, (hiff hwaits).2 hspared⟩
    · rintro s a t ⟨h, hwaits⟩ - ht htwaits
      obtain ⟨s', hs', hsound, hiff⟩ := step_sound h a
      rw [ht] at hs'
      obtain rfl : t = s' := Except.ok.inj hs'
      exact (hiff hwaits).1 htwaits
    · rintro s a e ⟨h, -⟩ - he
      obtain ⟨s', hs', -⟩ := step_sound h a
      rw [he] at hs'
      cases hs'

/-- While a frame is received, another one is given to the module; then a third one collides. The frame
    waits in the idle state, and no timer is pending. -/
theorem collision_strands_frame :
    let p : Mac8023Config := ⟨96, id, fun pkt _ => pkt.len, true⟩
    let acts : List Mac8023Action := [.recv ⟨100, 4, false, false⟩ 0, .send ⟨100, 0, false, false⟩,
      .recv ⟨100, 4, false, false⟩ 0]
    ¬ Run.Always (step p) Waits init acts := by
  intro p acts halways
  have hwaits := halways.exec (t := { init with
    pktRetx := some ⟨104, 4, false, false⟩ }) rfl
  rcases hwaits (Option.some_ne_none _) rfl with hifs | hretx
  · exact hifs rfl
  · exact hretx rfl

end Mac8023

end Mac
