import Nctuns.Mac.Attempts

/-!
# The handlers of the DCF

The timers say when the station may begin to send; each handler then is one move of the attempts to send
the frame. What the station does with the frames of others needs only one handler at a time.
-/

namespace Wlan

namespace Dcf

variable {p : DcfConfig} {now : ℕ} {s s' : Dcf}

/-- Two calls that succeed one after the other. -/
theorem bind_ok {α β : Type} {x : Except Fault α} {f : α → Except Fault β} {b : β} (h : x >>= f = .ok b) :
    ∃ a, x = .ok a ∧ f a = .ok b := by
  cases x with
  | error e => cases h
  | ok a => exact ⟨a, rfl, h⟩

/-- An assertion that does not fail. -/
theorem assert_ok {c : Prop} [Decidable c] {u : Unit} (h : assert c = .ok u) : c := by
  by_contra hc
  simp [assert, hc] at h

theorem assert_bind_ok {β : Type} {c : Prop} [Decidable c] {f : Unit → Except Fault β} {b : β}
    (h : assert c >>= f = .ok b) : c ∧ f () = .ok b := by
  obtain ⟨u, hu, h⟩ := bind_ok h
  exact ⟨assert_ok hu, h⟩

/-! ## What the parts of the handlers change -/

/-- The back-off is held or goes on, and nothing else changes. -/
theorem checkBackoff_spec (now : ℕ) (s : Dcf) :
    ∃ b, s.checkBackoff now = { s with mhBackoff := ⟨s.mhBackoff.busy_, b⟩ } ∧
      (s.mhBackoff.busy_ = true → b = false → s.tx_state = .MAC_IDLE) := by
  unfold checkBackoff
  split
  · next hi =>
    have ht : s.tx_state = .MAC_IDLE := by
      simp only [is_idle, decide_eq_true_eq] at hi
      exact hi.2.1
    split
    · exact ⟨false, rfl, fun _ _ => ht⟩
    · exact ⟨s.mhBackoff.paused_, rfl, fun _ _ => ht⟩
  · split
    · exact ⟨true, rfl, by simp⟩
    · next hb => exact ⟨s.mhBackoff.paused_, rfl, fun h => absurd h hb⟩

/-- The state of the sender, and the back-off. -/
theorem setTxState_spec (now : ℕ) (s : Dcf) (x : MacState) :
    ∃ b, s.setTxState now x = { s with tx_state := x, mhBackoff := ⟨s.mhBackoff.busy_, b⟩ } ∧
      (s.mhBackoff.busy_ = true → b = false → x = .MAC_IDLE) :=
  checkBackoff_spec now { s with tx_state := x }

/-- The state of the receiver, and the back-off. -/
theorem setRxState_spec (now : ℕ) (s : Dcf) (x : MacState) :
    ∃ b, s.setRxState now x = { s with rx_state := x, mhBackoff := ⟨s.mhBackoff.busy_, b⟩ } ∧
      (s.mhBackoff.busy_ = true → b = false → s.tx_state = .MAC_IDLE) :=
  checkBackoff_spec now { s with rx_state := x }

/-- Only the reservation of the medium. -/
theorem set_NAV_spec (now : ℕ) (s : Dcf) (ticks : ℕ) : ∃ n, s.set_NAV now ticks = { s with nav := n } := by
  unfold set_NAV
  split
  · exact ⟨_, rfl⟩
  · exact ⟨s.nav, rfl⟩

/-- The sender is on the air. -/
theorem transmit_spec {ack : Bool} (h : s.transmit ack = .ok s') :
    ∃ rx, s' = { s with tx_active := true, mhSend := .started, epktRx := rx } := by
  unfold transmit at h
  split at h
  · split at h
    · cases h
    · obtain ⟨-, h⟩ := assert_bind_ok h
      cases h
      exact ⟨_, rfl⟩
  · cases h
    exact ⟨s.epktRx, rfl⟩

/-- The sender is idle, and the wait for what is next may begin. -/
theorem tx_resume_spec (h : s.tx_resume now = .ok s') :
    ∃ d b, s' = { s with tx_state := .MAC_IDLE, mhDefer := d, mhBackoff := ⟨s.mhBackoff.busy_, b⟩ } ∧
      (d.busy_ = true → s.mhDefer.busy_ = true ∨ s.epktCTRL.isSome ∨
        s.mhBackoff.busy_ = false ∧ (s.epktRTS = true ∨ s.outgoing.isSome)) := by
  obtain ⟨-, h⟩ := assert_bind_ok h
  cases h
  by_cases hc : s.epktCTRL.isSome
  · obtain ⟨b, hb, -⟩ := setTxState_spec now s.start_defer .MAC_IDLE
    refine ⟨.started, b, ?_, fun _ => .inr (.inl hc)⟩
    simp only [hc, if_true]
    exact hb
  · by_cases ho : (s.epktRTS = true ∨ s.outgoing.isSome) ∧ s.mhBackoff.busy_ = false
    · obtain ⟨b, hb, -⟩ := setTxState_spec now s.start_defer .MAC_IDLE
      refine ⟨.started, b, ?_, fun _ => .inr (.inr ⟨ho.2, ho.1⟩)⟩
      simp only [hc, if_pos ho.1, if_pos ho.2]
      exact hb
    · obtain ⟨b, hb, -⟩ := setTxState_spec now s .MAC_IDLE
      refine ⟨s.mhDefer, b, ?_, fun h => .inl h⟩
      have : (if s.epktRTS = true ∨ s.outgoing.isSome then
          if s.mhBackoff.busy_ = false then s.start_defer else s else s) = s := by
        split
        · next h1 =>
          split
          · next h2 => exact absurd ⟨h1, h2⟩ ho
          · rfl
        · rfl
      simp only [hc, this]
      exact hb

/-- The RTS is made for the frame that needs one. -/
theorem sendRTS_spec (h : s.sendRTS p = .ok s') :
    ∃ f, s.outgoing = some f ∧ s.epktRTS = false ∧ s' = { s with epktRTS := decide (¬ Plain p f) } := by
  unfold sendRTS at h
  cases hf : s.outgoing with
  | none =>
    rw [hf] at h
    cases h
  | some f =>
    rw [hf] at h
    obtain ⟨hr, h⟩ := assert_bind_ok h
    refine ⟨f, rfl, hr, ?_⟩
    cases h
    by_cases hp : Plain p f
    · simp [hp, ← hr]
    · simp [hp]

/-! ## The timers and the attempts -/

/-- What the sender waits for. -/
def phase : MacState → Phase
  | .MAC_RTS => .cts
  | .MAC_SEND => .ack
  | _ => .resting

/-- What the station has done about its frame. -/
def attempts (s : Dcf) : Attempts where
  frame := s.outgoing
  rts := s.epktRTS
  phase := phase s.tx_state
  ssrc := s.ssrc
  slrc := s.slrc
  rtsTries := s.rtsTries
  dataTries := s.dataTries
  drops := s.drops

/-- When the timers run. -/
structure Ready (s : Dcf) : Prop where
  send : s.tx_state ≠ .MAC_IDLE → s.mhSend.busy_ = true
  defer : s.mhDefer.busy_ = true → s.tx_state = .MAC_IDLE
  waits : s.mhDefer.busy_ = true → s.epktCTRL = none → s.mhBackoff.busy_ = false ∧ s.outgoing.isSome
  backoff : s.mhBackoff = .started → s.tx_state = .MAC_IDLE
  one : s.epktTx = none ∨ s.epktBEACON = none

/-- The invariant of the runs. -/
structure Kept (p : DcfConfig) (s : Dcf) : Prop where
  ready : s.Ready
  balanced : s.attempts.Balanced p

/-- An RTS is that of a frame. -/
theorem Kept.rts_outgoing (h : Kept p s) (hr : s.epktRTS = true) : s.outgoing.isSome := by
  obtain ⟨f, hf⟩ := h.balanced.rts_frame (a := s.attempts) hr
  exact Option.isSome_iff_exists.2 ⟨f, hf⟩

/-- After `tx_resume` the station is ready, if the deferral that may have run has its reason. -/
theorem tx_resume_ready (h : s.tx_resume now = .ok s') (ho : s.epktTx = none ∨ s.epktBEACON = none)
    (hr : s.epktRTS = true → s.outgoing.isSome)
    (hd : s.mhDefer.busy_ = true → s.epktCTRL = none → s.mhBackoff.busy_ = false ∧ s.outgoing.isSome) :
    s'.Ready ∧ s'.attempts = { s.attempts with phase := .resting } := by
  obtain ⟨d, b, rfl, hdefer⟩ := tx_resume_spec h
  refine ⟨⟨by simp, fun _ => rfl, ?_, fun _ => rfl, ho⟩, rfl⟩
  intro hb hc
  rcases hdefer hb with h | h | ⟨h, h'⟩
  · exact hd h hc
  · have : s.epktCTRL = none := hc
    simp [this] at h
  · refine ⟨h, ?_⟩
    rcases h' with h' | h'
    · exact hr h'
    · exact h'

/-- A state with the same timers, and with a frame if there was one. -/
theorem Ready.of_same {r : Dcf} (hs : s.Ready) (htx : r.tx_state = s.tx_state) (hsend : r.mhSend = s.mhSend)
    (hdefer : r.mhDefer = s.mhDefer) (hback : r.mhBackoff = s.mhBackoff) (hctrl : r.epktCTRL = s.epktCTRL)
    (ho : s.outgoing.isSome → r.outgoing.isSome) (one : r.epktTx = none ∨ r.epktBEACON = none) : r.Ready := by
  refine ⟨?_, ?_, ?_, ?_, one⟩
  · rw [htx, hsend]
    exact hs.send
  · rw [htx, hdefer]
    exact hs.defer
  · rw [hdefer, hctrl, hback]
    intro h hc
    exact ⟨(hs.waits h hc).1, ho (hs.waits h hc).2⟩
  · rw [hback, htx]
    exact hs.backoff

/-- An idle station does not send. -/
theorem is_idle_tx (h : s.is_idle now = true) : s.tx_state = .MAC_IDLE := by
  simp only [is_idle, decide_eq_true_eq] at h
  exact h.2.1

/-- A backoff that starts while the medium is busy is paused. -/
theorem start_backoff_ready (hs : s.Ready) (hd : s.mhDefer.busy_ = true → s.epktCTRL.isSome) :
    (s.start_backoff now).Ready := by
  refine ⟨hs.send, hs.defer, ?_, ?_, hs.one⟩
  · intro h hc
    have h1 := hd h
    have h2 : s.epktCTRL = none := hc
    simp [h2] at h1
  · intro h
    have hi : s.is_idle now = true := by simpa [start_backoff, TimerObj.started] using h
    exact is_idle_tx hi

/-- The end of `send`: the frame waits for the deferral or the backoff. -/
theorem send_waits
    (h : s' = if s.mhBackoff.busy_ = false then
      if s.is_idle now then if s.mhDefer.busy_ = false then s.start_defer else s else s.start_backoff now
    else s)
    (hs : s.Ready) (hd : s.mhDefer.busy_ = true → s.epktCTRL.isSome) (ho : s.outgoing.isSome) :
    s'.Ready ∧ s'.attempts = s.attempts := by
  subst h
  split
  · next hb =>
    split
    · next hi =>
      split
      · exact ⟨⟨hs.send, fun _ => is_idle_tx hi, fun _ _ => ⟨hb, ho⟩, hs.backoff, hs.one⟩, rfl⟩
      · exact ⟨hs, rfl⟩
    · exact ⟨start_backoff_ready hs hd, rfl⟩
  · exact ⟨hs, rfl⟩

/-- A frame from above. -/
theorem send_kept {f : Frame} (h : s.send p now f = .ok s') (hk : Kept p s) :
    s'.Ready ∧ Attempts.Move p s.attempts s'.attempts := by
  have hs := hk.ready
  unfold send at h
  cases ho : s.outgoing with
  | some g =>
    simp only [ho, Option.isSome_some, if_true] at h
    cases h
    exact ⟨hs, .stay _⟩
  | none =>
    simp only [ho, Option.isSome_none, Bool.false_eq_true, if_false] at h
    obtain ⟨htx, hbe⟩ : s.epktTx = none ∧ s.epktBEACON = none := by
      simpa [outgoing, Option.or_eq_none_iff] using ho
    -- no deferral runs for a frame that was not there
    have hdefer : s.mhDefer.busy_ = true → s.epktCTRL.isSome := by
      intro h
      by_contra hc
      have := (hs.waits h (by simpa using hc)).2
      simp [ho] at this
    have hmove := Attempts.Move.accept (p := p) s.attempts f ho
    obtain ⟨t, ht, h⟩ := bind_ok h
    obtain ⟨g, hg, -, hte⟩ := sendRTS_spec ht
    obtain ⟨hr, hout, hdef, hctrl, hmove⟩ : t.Ready ∧ t.outgoing.isSome ∧ t.mhDefer = s.mhDefer ∧
        t.epktCTRL = s.epktCTRL ∧ Attempts.Move p s.attempts t.attempts := by
      by_cases hf : f.dh_fc = .Management true
      · simp only [hf, if_true] at hg hte
        obtain rfl : f = g := by simpa [outgoing, htx] using hg
        subst hte
        refine ⟨hs.of_same rfl rfl rfl rfl rfl (fun _ => ?_) (.inl htx), ?_, rfl, rfl, ?_⟩
        · simp [outgoing]
        · simp [outgoing]
        · simpa [attempts, outgoing, htx] using hmove
      · simp only [hf, if_false] at hg hte
        obtain rfl : f = g := by simpa [outgoing] using hg
        subst hte
        refine ⟨hs.of_same rfl rfl rfl rfl rfl (fun _ => ?_) (.inr hbe), ?_, rfl, rfl, ?_⟩
        · simp [outgoing]
        · simp [outgoing]
        · simpa [attempts, outgoing] using hmove
    rw [← hdef, ← hctrl] at hdefer
    obtain ⟨h1, h2⟩ := send_waits (Except.ok.inj h).symm hr hdefer hout
    exact ⟨h1, h2 ▸ hmove⟩

/-! ## Sending -/

/-- A transmission begins when no deferral runs. -/
theorem transmit_ready {t : Dcf} {x : MacState} {b : Bool} {n m : ℕ} {ack : Bool}
    (h : t.transmit ack = .ok s')
    (ht : t = { s with
      tx_state := x, mhBackoff := ⟨s.mhBackoff.busy_, b⟩, rtsTries := n, dataTries := m })
    (hidle : s.mhBackoff.busy_ = true → b = false → x = .MAC_IDLE)
    (hd : s.mhDefer.busy_ = false) (one : s.epktTx = none ∨ s.epktBEACON = none) :
    s'.Ready ∧ s'.attempts = { s.attempts with phase := phase x, rtsTries := n, dataTries := m } := by
  obtain ⟨rx, rfl⟩ := transmit_spec h
  subst ht
  refine ⟨⟨fun _ => rfl, ?_, ?_, ?_, one⟩, rfl⟩
  · intro h
    simp [hd] at h
  · intro h
    simp [hd] at h
  · intro h
    obtain ⟨h1, h2⟩ := TimerObj.mk.inj h
    exact hidle h1 h2

theorem phase_idle (ht : s.tx_state = .MAC_IDLE) : s.attempts.phase = .resting := by
  simp [attempts, ht, phase]

/-- An answer is sent. -/
theorem check_pktCTRL_kept (h : s.check_pktCTRL now = .ok (some s')) (hs : s.Ready)
    (hd : s.mhDefer.busy_ = false) (ht : s.tx_state = .MAC_IDLE) :
    s'.Ready ∧ s'.attempts = s.attempts := by
  have hsend : ∀ x ack t, phase x = .resting → (s.setTxState now x).transmit ack = .ok t →
      t.Ready ∧ t.attempts = s.attempts := by
    intro x ack t hx h
    obtain ⟨b, hb, hidle⟩ := setTxState_spec now s x
    obtain ⟨h1, h2⟩ := transmit_ready h hb hidle hd hs.one
    refine ⟨h1, ?_⟩
    rw [h2, hx, ← phase_idle ht]
    rfl
  unfold check_pktCTRL at h
  split at h
  · cases h
  · rw [if_neg (by simp [ht])] at h
    split at h
    · split at h
      · cases h
        exact ⟨⟨hs.send, hs.defer, fun h => by simp [hd] at h, hs.backoff, hs.one⟩, rfl⟩
      · obtain ⟨t, hsent, h'⟩ := bind_ok h
        cases h'
        exact hsend .MAC_CTS _ _ rfl hsent
    · obtain ⟨t, hsent, h'⟩ := bind_ok h
      cases h'
      exact hsend .MAC_ACK _ _ rfl hsent

/-- An RTS is sent, or there is none. -/
theorem check_pktRTS_kept {r : Option Dcf} (h : s.check_pktRTS now = .ok r) (hs : s.Ready)
    (hd : s.mhDefer.busy_ = false) (ht : s.tx_state = .MAC_IDLE) :
    (r = none ∧ s.epktRTS = false) ∨
      ∃ s', r = some s' ∧ s'.Ready ∧ Attempts.Move p s.attempts s'.attempts := by
  obtain ⟨-, h⟩ := assert_bind_ok h
  split at h
  · next hr =>
    cases h
    exact .inl ⟨rfl, hr⟩
  · next hr =>
    refine .inr ?_
    split at h
    · cases h
      exact ⟨_, rfl, start_backoff_ready hs (fun h => by simp [hd] at h), .stay _⟩
    · obtain ⟨b, hb, hidle⟩ := setTxState_spec now s .MAC_RTS
      rw [hb] at h
      obtain ⟨t, hsent, h'⟩ := bind_ok h
      cases h'
      obtain ⟨h1, h2⟩ := transmit_ready hsent rfl hidle hd hs.one
      refine ⟨t, rfl, h1, h2 ▸ ?_⟩
      exact .sendRTS s.attempts (by simpa [attempts] using hr) (phase_idle ht)

/-- A beacon is sent, or there is none. -/
theorem check_pktBEACON_kept {r : Option Dcf} (h : s.check_pktBEACON now = .ok r) (hs : s.Ready)
    (hr : s.epktRTS = false) (hd : s.mhDefer.busy_ = false) (ht : s.tx_state = .MAC_IDLE) :
    r = none ∨ ∃ s', r = some s' ∧ s'.Ready ∧ Attempts.Move p s.attempts s'.attempts := by
  obtain ⟨-, h⟩ := assert_bind_ok h
  split at h
  · cases h
    exact .inl rfl
  · next f hf =>
    refine .inr ?_
    split at h
    · cases h
    · split at h
      · cases h
        exact ⟨_, rfl, start_backoff_ready hs (fun h => by simp [hd] at h), .stay _⟩
      · obtain ⟨b, hb, hidle⟩ := setTxState_spec now s .MAC_SEND
        rw [hb] at h
        obtain ⟨t, hsent, h'⟩ := bind_ok h
        cases h'
        obtain ⟨h1, h2⟩ := transmit_ready hsent rfl hidle hd hs.one
        have htx : s.epktTx = none := by simpa [hf] using hs.one
        refine ⟨t, rfl, h1, h2 ▸ ?_⟩
        exact .sendFrame s.attempts f (by simp [attempts, outgoing, htx, hf]) hr (phase_idle ht)

/-- A data frame is sent, or there is none. -/
theorem check_pktTx_kept {r : Option Dcf} (h : s.check_pktTx p now = .ok r) (hs : s.Ready)
    (hr : s.epktRTS = false) (hd : s.mhDefer.busy_ = false) (ht : s.tx_state = .MAC_IDLE) :
    r = none ∨ ∃ s', r = some s' ∧ s'.Ready ∧ Attempts.Move p s.attempts s'.attempts := by
  obtain ⟨-, h⟩ := assert_bind_ok h
  split at h
  · cases h
    exact .inl rfl
  · next f hf =>
    refine .inr ?_
    have hbody : (if s.is_idle now = false then do
          let s ← s.sendRTS p
          .ok (some (s.start_backoff now))
        else do
          let s ← { s.setTxState now .MAC_SEND with dataTries := s.dataTries + 1 }.transmit false
          .ok (some s)) = .ok r := by
      split at h
      · exact h
      · exact h
      · cases h
    clear h
    split at hbody
    · obtain ⟨t, hsent, h'⟩ := bind_ok hbody
      cases h'
      obtain ⟨g, hg, -, rfl⟩ := sendRTS_spec hsent
      refine ⟨_, rfl, start_backoff_ready ?_ (fun h => by simp [hd] at h), ?_⟩
      · exact hs.of_same rfl rfl rfl rfl rfl (fun h => h) hs.one
      · exact .redo s.attempts g hg (phase_idle ht) hr
    · obtain ⟨b, hb, hidle⟩ := setTxState_spec now s .MAC_SEND
      rw [hb] at hbody
      obtain ⟨t, hsent, h'⟩ := bind_ok hbody
      cases h'
      obtain ⟨h1, h2⟩ := transmit_ready hsent rfl hidle hd hs.one
      refine ⟨t, rfl, h1, h2 ▸ ?_⟩
      exact .sendFrame s.attempts f (by simp [attempts, outgoing, hf]) hr (phase_idle ht)

/-- The first of the frames that wait. -/
theorem checkPackets_kept (h : s.checkPackets p now = .ok s') (hs : s.Ready)
    (hd : s.mhDefer.busy_ = false) (ht : s.tx_state = .MAC_IDLE) :
    s'.Ready ∧ Attempts.Move p s.attempts s'.attempts := by
  obtain ⟨r, h1, h⟩ := bind_ok h
  rcases check_pktRTS_kept (p := p) h1 hs hd ht with ⟨rfl, hr⟩ | ⟨t, rfl, hk⟩
  · obtain ⟨r, h2, h⟩ := bind_ok h
    rcases check_pktBEACON_kept (p := p) h2 hs hr hd ht with rfl | ⟨t, rfl, hk⟩
    · obtain ⟨r, h3, h⟩ := bind_ok h
      rcases check_pktTx_kept h3 hs hr hd ht with rfl | ⟨t, rfl, hk⟩
      · cases h
        exact ⟨hs, .stay _⟩
      · cases h
        exact hk
    · cases h
      exact hk
  · cases h
    exact hk

/-- The wait is over. -/
theorem deferHandler_kept (h : { s with mhDefer := .stopped }.deferHandler p now = .ok s') (hk : Kept p s)
    (hb : s.mhDefer.busy_ = true) : s'.Ready ∧ Attempts.Move p s.attempts s'.attempts := by
  have hs := hk.ready
  have hs' : { s with mhDefer := .stopped }.Ready :=
    ⟨hs.send, by simp [TimerObj.stopped], by simp [TimerObj.stopped], hs.backoff, hs.one⟩
  obtain ⟨-, h⟩ := assert_bind_ok h
  obtain ⟨r, h1, h⟩ := bind_ok h
  cases r with
  | some t =>
    cases h
    obtain ⟨h2, h3⟩ := check_pktCTRL_kept h1 hs' rfl (hs.defer hb)
    exact ⟨h2, h3 ▸ .stay _⟩
  | none =>
    obtain ⟨-, h⟩ := assert_bind_ok h
    have := checkPackets_kept h hs' rfl (hs.defer hb)
    exact this

/-- The back-off is over. -/
theorem backoffHandler_kept (h : { s with mhBackoff := .stopped }.backoffHandler p now = .ok s')
    (hk : Kept p s) (hb : s.mhBackoff = .started) :
    s'.Ready ∧ Attempts.Move p s.attempts s'.attempts := by
  have hs := hk.ready
  have hs' : { s with mhBackoff := .stopped }.Ready :=
    ⟨hs.send, hs.defer, fun h hc => ⟨rfl, (hs.waits h hc).2⟩, fun _ => hs.backoff hb, hs.one⟩
  unfold backoffHandler at h
  split at h
  · obtain ⟨-, h⟩ := assert_bind_ok h
    cases h
    exact ⟨hs', .stay _⟩
  · next hc =>
    have hd : s.mhDefer.busy_ = false := by
      by_contra hd
      have := (hs.waits (by simpa using hd) (by simpa using hc)).1
      simp [hb, TimerObj.started] at this
    have := checkPackets_kept h hs' hd (hs.backoff hb)
    exact this

/-! ## Resuming -/

/-- What a handler that ends with `tx_resume` has made of the state before it. -/
structure Resumes (p : DcfConfig) (s t : Dcf) : Prop where
  one : t.epktTx = none ∨ t.epktBEACON = none
  rts : t.epktRTS = true → t.outgoing.isSome
  waits : t.mhDefer.busy_ = true → t.epktCTRL = none → t.mhBackoff.busy_ = false ∧ t.outgoing.isSome
  move : Attempts.Move p s.attempts { t.attempts with phase := .resting }

/-- The sender goes on after an attempt. -/
theorem Resumes.kept {t : Dcf} (hr : Resumes p s t) (h : t.tx_resume now = .ok s') :
    s'.Ready ∧ Attempts.Move p s.attempts s'.attempts := by
  obtain ⟨h1, h2⟩ := tx_resume_ready h hr.one hr.rts hr.waits
  exact ⟨h1, h2 ▸ hr.move⟩

/-- While the station sends, no deferral runs. -/
theorem Ready.no_defer (hs : s.Ready) (ht : s.tx_state ≠ .MAC_IDLE) : s.mhDefer.busy_ = false := by
  by_contra hd
  exact ht (hs.defer (by simpa using hd))

theorem clear_frame (one : s.epktTx = none ∨ s.epktBEACON = none) :
    (if s.epktTx.isSome then { s with epktTx := none } else { s with epktBEACON := none }) =
      { s with epktTx := none, epktBEACON := none } := by
  rcases one with h | h
  · simp [h]
  · cases hf : s.epktTx with
    | none => simp
    | some f => simp [h]

/-- A frame is given up. -/
theorem giveUp_eq (d : Dropped) (one : s.epktTx = none ∨ s.epktBEACON = none) :
    s.giveUp d = { s with epktTx := none, epktBEACON := none, drops := s.drops ++ [d] } := by
  unfold giveUp
  rw [clear_frame one]

/-- The RTS has failed. -/
theorem retransmitRTS_resumes {t : Dcf} (h : s.retransmitRTS now = .ok t)
    (one : s.epktTx = none ∨ s.epktBEACON = none) (hd : s.mhDefer.busy_ = false)
    (ht : s.tx_state = .MAC_RTS) (hsane : s.ssrc + 1 ≥ aShortRetryLimit → s.slrc = 0) :
    Resumes p s t := by
  obtain ⟨⟨ho, hr⟩, h⟩ := assert_bind_ok h
  obtain ⟨-, h⟩ := assert_bind_ok h
  have hphase : s.attempts.phase = .cts := by simp [attempts, ht, phase]
  rw [giveUp_eq _ one] at h
  split at h
  · next hlim =>
    cases h
    refine ⟨.inl rfl, by simp, ?_, .rtsFailed s.attempts hphase hlim (hsane hlim)⟩
    intro h
    simp [hd] at h
  · next hlim =>
    cases h
    refine ⟨one, fun _ => ho, ?_, .noCTS s.attempts hphase (Nat.lt_of_not_ge hlim)⟩
    intro h
    have : s.mhDefer.busy_ = true := h
    simp [hd] at this

/-- The frame has failed. -/
theorem retransmitDATA_resumes {t : Dcf} (h : s.retransmitDATA p now = .ok t)
    (one : s.epktTx = none ∨ s.epktBEACON = none) (hd : s.mhDefer.busy_ = false)
    (ht : s.tx_state = .MAC_SEND) {f : Frame} (hf : s.outgoing = some f)
    (hb : f.dh_addr1 ≠ etherbroadcastaddr) : Resumes p s t := by
  obtain ⟨-, h⟩ := assert_bind_ok h
  have hphase : s.attempts.phase = .ack := by simp [attempts, ht, phase]
  split at h
  · cases h
  · next g htx =>
    obtain rfl : g = f := by simpa [outgoing, htx] using hf
    obtain ⟨hr, h⟩ := assert_bind_ok h
    have hwait : s.mhDefer.busy_ = true → False := by simp [hd]
    split at h
    · next hs =>
      split at h
      · next hlim =>
        cases h
        rw [giveUp_eq _ one]
        exact ⟨.inl rfl, by simp [hr], fun h => (hwait h).elim, .shortFailed s.attempts g hf hb hs hphase hlim⟩
      · next hlim =>
        obtain ⟨r, hrts, h⟩ := bind_ok h
        cases h
        obtain ⟨f', hf', -, rfl⟩ := sendRTS_spec hrts
        obtain rfl : g = f' := Option.some.inj (hf.symm.trans hf')
        have hp : Plain p g := .inl hs
        refine ⟨one, by simp [start_backoff, hp], fun h => (hwait h).elim, ?_⟩
        have := Attempts.Move.noACKShort s.attempts g hf hb hs hphase (Nat.le_of_not_gt hlim)
        simpa [attempts, start_backoff, outgoing, hp, hr] using this
    · next hs =>
      split at h
      · next hlim =>
        cases h
        rw [giveUp_eq _ one]
        exact ⟨.inl rfl, by simp [hr], fun h => (hwait h).elim, .longFailed s.attempts g hf hb hs hphase hlim⟩
      · next hlim =>
        obtain ⟨r, hrts, h⟩ := bind_ok h
        cases h
        obtain ⟨f', hf', -, rfl⟩ := sendRTS_spec hrts
        obtain rfl : g = f' := Option.some.inj (hf.symm.trans hf')
        have hp : ¬ Plain p g := Attempts.not_plain hb hs
        refine ⟨one, fun _ => ?_, fun h => (hwait h).elim, ?_⟩
        · simp [start_backoff, outgoing, htx]
        · have := Attempts.Move.noACKLong s.attempts g hf hb hs hphase (Nat.le_of_not_gt hlim)
          simpa [attempts, start_backoff, outgoing, hp] using this

/-- Nothing was waited for. -/
theorem Resumes.of_resting {t : Dcf} (one : t.epktTx = none ∨ t.epktBEACON = none)
    (hr : t.epktRTS = true → t.outgoing.isSome)
    (hw : t.mhDefer.busy_ = true → t.epktCTRL = none → t.mhBackoff.busy_ = false ∧ t.outgoing.isSome)
    (h : t.attempts = s.attempts) (hp : s.attempts.phase = .resting) : Resumes p s t := by
  refine ⟨one, hr, hw, ?_⟩
  rw [h, ← hp]
  exact .stay _

theorem sendFailed_resumes {t : Dcf} (h : s.sendFailed p now = .ok t) (hk : s.attempts.Balanced p)
    (one : s.epktTx = none ∨ s.epktBEACON = none)
    (hd : s.tx_state ≠ .MAC_IDLE → s.mhDefer.busy_ = false)
    (hw : s.mhDefer.busy_ = true → s.epktCTRL = none → s.mhBackoff.busy_ = false ∧ s.outgoing.isSome)
    (hsane : s.tx_state = .MAC_RTS → s.ssrc + 1 ≥ aShortRetryLimit → s.slrc = 0) : Resumes p s t := by
  have hrts : s.epktRTS = true → s.outgoing.isSome := by
    intro hr
    exact Option.isSome_iff_exists.2 (hk.rts_frame hr)
  have hctrl : ∀ x, s.tx_state = x → x ≠ .MAC_IDLE → phase x = .resting → ∀ t,
      (do
        assert s.epktCTRL.isSome
        .ok { s with epktCTRL := none }) = .ok t → Resumes p s t := by
    intro x hx hne hp t h
    obtain ⟨-, h⟩ := assert_bind_ok h
    cases h
    refine .of_resting one hrts (fun h => ?_) rfl (by simp [attempts, hx, hp])
    simp [hd (hx ▸ hne)] at h
  unfold sendFailed at h
  split at h
  · next htx => exact retransmitRTS_resumes h one (hd (by simp [htx])) htx (hsane htx)
  · next htx => exact hctrl _ htx (by simp) rfl t h
  · next htx => exact hctrl _ htx (by simp) rfl t h
  · next htx =>
    have hd := hd (by simp [htx])
    split at h
    · cases h
    · next f hf =>
      split at h
      · next hb => exact retransmitDATA_resumes h one hd htx hf hb
      · next hb =>
        cases h
        have hp : s.attempts.phase = .ack := by simp [attempts, htx, phase]
        have hr : s.epktRTS = false := (hk.frame f hf).ack hp
        rw [clear_frame one]
        refine ⟨.inl rfl, by simp [start_backoff, hr], fun h => ?_, ?_⟩
        · simp [start_backoff, hd] at h
        · exact .broadcast s.attempts f hf (not_not.1 hb) hp
  · next htx =>
    cases h
    exact .of_resting one hrts hw rfl (phase_idle htx)
  · cases h

/-- What was sent has not been answered. -/
theorem sendHandler_kept (h : { s with mhSend := .stopped }.sendHandler p now = .ok s') (hk : Kept p s)
    (hsane : s.tx_state = .MAC_RTS → s.ssrc + 1 ≥ aShortRetryLimit → s.slrc = 0) :
    s'.Ready ∧ Attempts.Move p s.attempts s'.attempts := by
  have hs := hk.ready
  obtain ⟨t, hfail, h⟩ := bind_ok h
  have hr := sendFailed_resumes hfail hk.balanced hs.one hs.no_defer hs.waits hsane
  have := hr.kept h
  exact this

/-! ## Receiving -/

theorem recvRTS_kept {f : Frame} (h : s.recvRTS now f = .ok s') (hk : Kept p s) :
    s'.Ready ∧ Attempts.Move p s.attempts s'.attempts := by
  unfold recvRTS at h
  split at h
  · cases h
    exact ⟨hk.ready, .stay _⟩
  · next htx =>
    split at h
    · cases h
      exact ⟨hk.ready, .stay _⟩
    · obtain ⟨t, hc, h⟩ := bind_ok h
      obtain ⟨-, hc⟩ := assert_bind_ok hc
      cases hc
      refine Resumes.kept (s := s) ?_ h
      refine .of_resting hk.ready.one hk.rts_outgoing (fun h => ?_) rfl (phase_idle (not_not.1 htx))
      simp [TimerObj.stopped] at h

theorem recvCTS_kept (h : s.recvCTS now = .ok s') (hk : Kept p s) :
    s'.Ready ∧ Attempts.Move p s.attempts s'.attempts := by
  unfold recvCTS at h
  split at h
  · cases h
    exact ⟨hk.ready, .stay _⟩
  · next htx =>
    have htx := not_not.1 htx
    obtain ⟨-, h⟩ := assert_bind_ok h
    have hd := hk.ready.no_defer (by simp [htx])
    refine Resumes.kept (s := s) ?_ h
    refine ⟨hk.ready.one, by simp, fun h => ?_, .answered s.attempts (by simp [attempts, htx, phase])⟩
    simp [hd] at h

theorem recvACK_kept (h : s.recvACK p now = .ok s') (hk : Kept p s) :
    s'.Ready ∧ Attempts.Move p s.attempts s'.attempts := by
  unfold recvACK at h
  split at h
  · cases h
    exact ⟨hk.ready, .stay _⟩
  · next htx =>
    have htx := not_not.1 htx
    split at h
    · cases h
    · next f hf =>
      obtain ⟨-, h⟩ := assert_bind_ok h
      have hd := hk.ready.no_defer (by simp [htx])
      have hp : s.attempts.phase = .ack := by simp [attempts, htx, phase]
      have ho : s.attempts.frame = some f := by simp [attempts, outgoing, hf]
      have hbe : s.epktBEACON = none := by simpa [hf] using hk.ready.one
      have hr : s.epktRTS = false := (hk.balanced.frame f ho).ack hp
      have hmove := Attempts.Move.acknowledged (p := p) s.attempts f ho hp
      refine Resumes.kept (s := s) ?_ h
      by_cases hs : f.pktlen < p.aRTSThreshold
      · simp only [hs, if_true] at hmove ⊢
        refine ⟨.inl rfl, by simp [start_backoff, hr], fun h => by simp [start_backoff, hd] at h, ?_⟩
        simpa [attempts, outgoing, start_backoff, hbe] using hmove
      · simp only [hs, if_false] at hmove ⊢
        refine ⟨.inl rfl, by simp [start_backoff, hr], fun h => by simp [start_backoff, hd] at h, ?_⟩
        simpa [attempts, outgoing, start_backoff, hbe] using hmove

theorem recvDATA_kept {f : Frame} (h : s.recvDATA p now f = .ok s') (hk : Kept p s)
    (hdata : f.dh_fc.isData = true) (hsane : s.TakesLong p f → s.ssrc = 0) :
    s'.Ready ∧ Attempts.Move p s.attempts s'.attempts := by
  have hs := hk.ready
  unfold recvDATA at h
  split at h
  · cases h
    exact ⟨hs, .stay _⟩
  · next haddr =>
    split at h
    · next hlong =>
      split at h
      · next htx =>
        obtain ⟨-, h⟩ := assert_bind_ok h
        obtain ⟨t, hc, h⟩ := bind_ok h
        obtain ⟨-, hc⟩ := assert_bind_ok hc
        cases hc
        have hd := hs.no_defer (by simp [htx])
        refine Resumes.kept (s := s) ?_ h
        refine .of_resting hs.one hk.rts_outgoing (fun h => ?_) ?_ (by simp [attempts, htx, phase])
        · simp [hd] at h
        · simp [attempts, outgoing, hsane ⟨hdata, haddr, hlong, htx⟩]
      · cases h
        exact ⟨hs, .stay _⟩
    · split at h
      · cases h
        exact ⟨hs, .stay _⟩
      · obtain ⟨t, hc, h⟩ := bind_ok h
        obtain ⟨-, hc⟩ := assert_bind_ok hc
        cases hc
        split at h
        · next hb =>
          -- nothing is under way: the frame of an unanswered transmission is not forgotten
          have htx : s.tx_state = .MAC_IDLE := by
            by_contra hne
            have h1 := hs.send hne
            have h2 : s.mhSend.busy_ = false := hb
            simp [h1] at h2
          refine Resumes.kept (s := s) ?_ h
          refine .of_resting hs.one hk.rts_outgoing (fun _ h => ?_) rfl (phase_idle htx)
          cases h
        · cases h
          refine ⟨⟨hs.send, hs.defer, fun _ h => ?_, hs.backoff, hs.one⟩, .stay _⟩
          cases h

theorem set_NAV_kept (ticks : ℕ) (hk : Kept p s) : Kept p (s.set_NAV now ticks) := by
  obtain ⟨n, hn⟩ := set_NAV_spec now s ticks
  rw [hn]
  exact ⟨⟨hk.ready.send, hk.ready.defer, hk.ready.waits, hk.ready.backoff, hk.ready.one⟩, hk.balanced⟩

theorem set_NAV_attempts (now : ℕ) (s : Dcf) (ticks : ℕ) : (s.set_NAV now ticks).attempts = s.attempts := by
  obtain ⟨n, hn⟩ := set_NAV_spec now s ticks
  rw [hn]
  rfl

/-- The frame is heard, with the NAV of a frame for another station. -/
def heard (p : DcfConfig) (now : ℕ) (s : Dcf) (f : Frame) : Dcf :=
  if f.dh_addr1 ≠ p.mac_ then s.set_NAV now (p.MICRO_TO_TICK f.dh_duration) else s

theorem heard_spec (p : DcfConfig) (now : ℕ) (s : Dcf) (f : Frame) : ∃ n, s.heard p now f = { s with nav := n } := by
  unfold heard
  split
  · exact set_NAV_spec now s _
  · exact ⟨s.nav, rfl⟩

theorem recvFrame_kept {f : Frame} (h : s.recvFrame p now f = .ok s') (hk : Kept p s)
    (hsane : ¬ s.Filtered p f → s.TakesLong p f → s.ssrc = 0) :
    s'.Ready ∧ Attempts.Move p s.attempts s'.attempts := by
  obtain ⟨n, hn⟩ := heard_spec p now s f
  have hk' : Kept p { s with nav := n } :=
    ⟨⟨hk.ready.send, hk.ready.defer, hk.ready.waits, hk.ready.backoff, hk.ready.one⟩, hk.balanced⟩
  unfold recvFrame at h
  simp only [← heard.eq_1, hn] at h
  split at h
  · cases h
    exact ⟨hk'.ready, .stay _⟩
  · next hfilter =>
    have hmove : s'.Ready ∧ Attempts.Move p ({ s with nav := n } : Dcf).attempts s'.attempts := by
      split at h
      · next hfc => exact recvDATA_kept h hk' (by rw [hfc]; rfl) (hsane hfilter)
      · exact recvRTS_kept h hk'
      · exact recvCTS_kept h hk'
      · exact recvACK_kept h hk'
      · next hfc => exact recvDATA_kept h hk' (by rw [hfc]; rfl) (hsane hfilter)
      · cases h
    exact hmove

theorem setRxState_kept (now : ℕ) (x : MacState) (hs : s.Ready) :
    (s.setRxState now x).Ready ∧ (s.setRxState now x).attempts = s.attempts := by
  obtain ⟨b, hb, hidle⟩ := setRxState_spec now s x
  rw [hb]
  refine ⟨⟨hs.send, hs.defer, hs.waits, ?_, hs.one⟩, rfl⟩
  intro h
  obtain ⟨h1, h2⟩ := TimerObj.mk.inj h
  exact hidle h1 h2

theorem arrive_kept {f : Frame} (h : s.arrive p now f = .ok s') (hk : Kept p s)
    (hsane : s.Clear f → ¬ s.Filtered p f → s.TakesLong p f → s.ssrc = 0) :
    s'.Ready ∧ Attempts.Move p s.attempts s'.attempts := by
  unfold arrive at h
  split at h
  · next hc => exact recvFrame_kept h hk (hsane hc)
  · split at h
    · cases h
      exact ⟨hk.ready, .stay _⟩
    · cases h
      refine ⟨(set_NAV_kept p.eifs hk).ready, ?_⟩
      rw [set_NAV_attempts]
      exact .stay _

/-- A frame has arrived. -/
theorem recvHandler_kept (h : { s with mhRecv := .stopped }.recvHandler p now = .ok s') (hk : Kept p s)
    (hsane : ∀ f ∈ s.epktRx, s.Clear f → ¬ s.Filtered p f → s.TakesLong p f → s.ssrc = 0) :
    s'.Ready ∧ Attempts.Move p s.attempts s'.attempts := by
  have hk' : Kept p { s with mhRecv := .stopped } :=
    ⟨⟨hk.ready.send, hk.ready.defer, hk.ready.waits, hk.ready.backoff, hk.ready.one⟩, hk.balanced⟩
  unfold recvHandler at h
  split at h
  · cases h
  · next f hf =>
    obtain ⟨-, h⟩ := assert_bind_ok h
    obtain ⟨t, ht, h⟩ := bind_ok h
    obtain ⟨-, h⟩ := assert_bind_ok h
    have hkt : t.Ready ∧ Attempts.Move p ({ s with mhRecv := .stopped } : Dcf).attempts t.attempts :=
      arrive_kept ht hk' (hsane f hf)
    cases h
    obtain ⟨h1, h2⟩ := setRxState_kept now .MAC_IDLE
      (s := { t with epktRx := none }) ⟨hkt.1.send, hkt.1.defer, hkt.1.waits, hkt.1.backoff, hkt.1.one⟩
    exact ⟨h1, h2 ▸ hkt.2⟩

theorem recv_kept {f : Frame} {overlap : Overlap} (h : s.recv now f overlap = .ok s') (hk : Kept p s) :
    s'.Ready ∧ s'.attempts = s.attempts := by
  unfold recv at h
  dsimp only at h
  generalize (if s.tx_active = true then { f with pkt_err_ := true } else f) = g at h
  split at h
  · obtain ⟨-, h⟩ := assert_bind_ok h
    cases h
    obtain ⟨h1, h2⟩ := setRxState_kept now .MAC_RECV hk.ready
    exact ⟨⟨h1.send, h1.defer, h1.waits, h1.backoff, h1.one⟩, h2⟩
  · split at h
    · cases h
      exact ⟨(set_NAV_kept _ hk).ready, set_NAV_attempts ..⟩
    · next last =>
      obtain ⟨-, h⟩ := assert_bind_ok h
      obtain ⟨h1, h2⟩ : (if s.rx_state = .MAC_RECV then s.setRxState now .MAC_COLL else s).Ready ∧
          (if s.rx_state = .MAC_RECV then s.setRxState now .MAC_COLL else s).attempts = s.attempts := by
        split
        · exact setRxState_kept now .MAC_COLL hk.ready
        · exact ⟨hk.ready, rfl⟩
      cases h
      cases last with
      | false => exact ⟨h1, h2⟩
      | true => exact ⟨⟨h1.send, h1.defer, h1.waits, h1.backoff, h1.one⟩, h2⟩

/-! ## Runs -/

/-- Each step of the station is a move of the attempts to send its frame. -/
theorem step_kept {i : ℕ × Action} (h : s.step p i = .ok s') (hk : Kept p s) (hsane : Sane p s i) :
    s'.Ready ∧ Attempts.Move p s.attempts s'.attempts := by
  have hs := hk.ready
  obtain ⟨now, a⟩ := i
  cases a with
  | send f => exact send_kept h hk
  | recv f overlap =>
    obtain ⟨h1, h2⟩ := recv_kept h hk
    exact ⟨h1, h2 ▸ .stay _⟩
  | nav =>
    cases h
    unfold navHandler
    split
    · next hi => exact ⟨⟨hs.send, hs.defer, hs.waits, fun _ => is_idle_tx hi.1, hs.one⟩, .stay _⟩
    · exact ⟨hs, .stay _⟩
  | sendTimer =>
    simp only [step] at h
    split at h
    · exact sendHandler_kept h hk hsane
    · cases h
      exact ⟨hs, .stay _⟩
  | deferTimer =>
    simp only [step] at h
    split at h
    · next hb => exact deferHandler_kept h hk hb
    · cases h
      exact ⟨hs, .stay _⟩
  | backoffTimer =>
    simp only [step] at h
    split at h
    · next hb => exact backoffHandler_kept h hk hb
    · cases h
      exact ⟨hs, .stay _⟩
  | interface =>
    cases h
    exact ⟨⟨hs.send, hs.defer, hs.waits, hs.backoff, hs.one⟩, .stay _⟩
  | recvTimer =>
    simp only [step] at h
    split at h
    · exact recvHandler_kept h hk hsane
    · cases h
      exact ⟨hs, .stay _⟩
  | promisc on =>
    cases h
    exact ⟨⟨hs.send, hs.defer, hs.waits, hs.backoff, hs.one⟩, .stay _⟩

theorem kept_init (p : DcfConfig) (on : Bool) : Kept p (init on) := by
  refine ⟨⟨?_, ?_, ?_, ?_, .inl rfl⟩, ⟨?_, ?_, Nat.zero_le _, ?_⟩⟩
  · simp [init]
  · simp [init]
  · simp [init, TimerObj.stopped]
  · simp [init]
  · intro _
    exact ⟨rfl, rfl, rfl, rfl⟩
  · intro f hf
    cases hf
  · intro d hd
    cases hd

theorem Kept.limits (h : Kept p s) : Limits p s :=
  ⟨fun ho => (h.balanced.empty ho).2.2, h.balanced.rtsTries, fun _ hf => h.balanced.dataTries_le hf,
    h.balanced.drops⟩

/-- **The limits.** In every run whose steps are sane no frame fails more often than its limits allow.
    -/
theorem retry_limits (on : Bool) (acts : List (ℕ × Action)) (hsane : Run.Along (step p) (Sane p) (init on) acts) :
    Run.Always (step p) (Limits p) (init on) acts := by
  refine Run.Always.mono (fun s hs => hs.limits) (Run.Always.of_along ?_ (kept_init p on) hsane)
  intro s i s' hs hi h
  obtain ⟨h1, h2⟩ := step_kept h hs hi
  exact ⟨h1, h2.balanced hs.balanced⟩

/-- Station 1, with the RTS for frames from 100 octets on. -/
def station : DcfConfig := ⟨1, 100, fun us => us * 10, 3640⟩

/-- A frame that needs an RTS. -/
def longFrame : Frame := ⟨.Data, 0, 2, 1, 528, false⟩

/-- The frame is sent once after its CTS, and is not acknowledged. -/
def unacknowledged : List (ℕ × Action) :=
  [(0, .send longFrame), (10, .deferTimer), (20, .interface), (30, .recv ⟨.CTS, 0, 1, 2, 14, false⟩ (.capture 0)),
    (40, .recvTimer), (50, .deferTimer), (60, .interface), (70, .sendTimer)]

/-- A long frame that is never acknowledged. -/
theorem retry_limits_unacknowledged : Run.Always (step station) (Limits station) (init false) unacknowledged :=
  retry_limits false unacknowledged (by decide)

/-- The RTS then fails seven times: the frame is given up, and its failed attempt is left to the next. -/
theorem attempt_left_behind :
    ¬ ∀ acts, Run.Always (step station) (Limits station) (init false) acts := by
  intro h
  have hrun : (Run.exec (step station) (init false) (unacknowledged ++
      (List.replicate 7 [(80, .backoffTimer), (90, .interface), (100, .sendTimer)]).flatten)).map
        (fun s => (s.outgoing, s.slrc)) = .ok (none, 1) := by decide
  obtain ⟨s, hs, he⟩ := (h _).exec_map hrun
  obtain ⟨ho, hl⟩ := Prod.mk.inj he
  have := (hs.fresh ho).2
  omega

/-! ## Frames of others -/

/-- An answer is made, or the frame counts as one. -/
def Touched (f : Frame) (s s' : Dcf) : Prop :=
  s'.made ≠ s.made ∨ (f.dh_fc = .CTS ∨ f.dh_fc = .ACK) ∧
    (s'.epktRTS ≠ s.epktRTS ∨ s'.epktTx ≠ s.epktTx ∨ s'.mhSend ≠ s.mhSend ∨ s'.ssrc ≠ s.ssrc ∨
      s'.slrc ≠ s.slrc)

theorem ownOnly_iff_touched {f : Frame} : OwnOnly p f s s' ↔ (Touched f s s' → f.dh_addr1 = p.mac_) := by
  constructor
  · rintro ⟨h1, h2⟩ (h | ⟨hf, h⟩)
    · exact h1 h
    · exact h2 hf h
  · intro h
    exact ⟨fun h' => h (.inl h'), fun hf h' => h (.inr ⟨hf, h'⟩)⟩

theorem not_touched_self (f : Frame) (s : Dcf) : ¬ Touched f s s := by
  simp [Touched]

/-- The end of a transmission makes no answer. -/
theorem tx_resume_made (h : s.tx_resume now = .ok s') :
    s'.made = s.made ∧ s'.epktRTS = s.epktRTS ∧ s'.epktTx = s.epktTx := by
  obtain ⟨d, b, rfl, -⟩ := tx_resume_spec h
  exact ⟨rfl, rfl, rfl⟩

theorem made_snoc {c : CtrlFrame} (h : s'.made = s.made ++ [c]) : s'.made ≠ s.made := by
  rw [h]
  simp

theorem recvRTS_touched {f : Frame} (h : s.recvRTS now f = .ok s') :
    Touched f s s' ↔ s.tx_state = .MAC_IDLE ∧ s.epktCTRL = none := by
  unfold recvRTS at h
  split at h
  · next ht =>
    cases h
    exact iff_of_false (not_touched_self f s) (fun h => ht h.1)
  · next ht =>
    split at h
    · next hc =>
      cases h
      refine iff_of_false (not_touched_self f s) (fun h => ?_)
      simp [h.2] at hc
    · next hc =>
      obtain ⟨t, hs, h⟩ := bind_ok h
      obtain ⟨-, hs⟩ := assert_bind_ok hs
      cases hs
      exact iff_of_true (.inl (made_snoc (tx_resume_made h).1)) ⟨not_not.1 ht, by simpa using hc⟩

theorem recvCTS_touched {f : Frame} (h : s.recvCTS now = .ok s') (hf : f.dh_fc = .CTS) :
    Touched f s s' ↔ s.tx_state = .MAC_RTS := by
  unfold recvCTS at h
  split at h
  · next ht =>
    cases h
    exact iff_of_false (not_touched_self f s) ht
  · next ht =>
    obtain ⟨⟨hr, -⟩, h⟩ := assert_bind_ok h
    refine iff_of_true (.inr ⟨.inl hf, .inl ?_⟩) (not_not.1 ht)
    rw [(tx_resume_made h).2.1, hr]
    simp

theorem recvACK_touched {f : Frame} (h : s.recvACK p now = .ok s') (hf : f.dh_fc = .ACK) :
    Touched f s s' ↔ s.tx_state = .MAC_SEND := by
  unfold recvACK at h
  split at h
  · next ht =>
    cases h
    exact iff_of_false (not_touched_self f s) ht
  · next ht =>
    split at h
    · cases h
    · next g hg =>
      obtain ⟨-, h⟩ := assert_bind_ok h
      refine iff_of_true (.inr ⟨.inr hf, .inr (.inl ?_)⟩) (not_not.1 ht)
      rw [(tx_resume_made h).2.2, hg]
      split <;> simp [start_backoff]

theorem recvDATA_touched {f : Frame} (h : s.recvDATA p now f = .ok s') :
    Touched f s s' ↔ f.dh_addr1 ≠ etherbroadcastaddr ∧
      if f.pkt_getlen ≥ p.aRTSThreshold then s.tx_state = .MAC_CTS else s.epktCTRL = none := by
  unfold recvDATA at h
  split at h
  · next hb =>
    cases h
    exact iff_of_false (not_touched_self f s) (fun h => h.1 hb)
  · next hb =>
    split at h
    · next hlong =>
      rw [if_pos hlong]
      split at h
      · next ht =>
        obtain ⟨-, h⟩ := assert_bind_ok h
        obtain ⟨t, hs, h⟩ := bind_ok h
        obtain ⟨-, hs⟩ := assert_bind_ok hs
        cases hs
        exact iff_of_true (.inl (made_snoc (tx_resume_made h).1)) ⟨hb, ht⟩
      · next ht =>
        cases h
        exact iff_of_false (not_touched_self f s) (fun h => ht h.2)
    · next hlong =>
      rw [if_neg hlong]
      split at h
      · next hc =>
        cases h
        refine iff_of_false (not_touched_self f s) (fun h => ?_)
        simp [h.2] at hc
      · next hc =>
        obtain ⟨t, hs, h⟩ := bind_ok h
        obtain ⟨-, hs⟩ := assert_bind_ok hs
        cases hs
        refine iff_of_true (.inl ?_) ⟨hb, by simpa using hc⟩
        split at h
        · exact made_snoc (tx_resume_made h).1
        · cases h
          exact made_snoc rfl

/-- A frame is answered, or counts as an answer, if its handler does something and it is not filtered. -/
theorem recvFrame_touched {f : Frame} (h : s.recvFrame p now f = .ok s') :
    Touched f s s' ↔ ¬ s.Filtered p f ∧ Acts p s f := by
  obtain ⟨n, hn⟩ := heard_spec p now s f
  unfold recvFrame at h
  simp only [← heard.eq_1, hn] at h
  split at h
  · next hfilter =>
    cases h
    refine iff_of_false ?_ (fun h => h.1 hfilter)
    simp [Touched]
  · next hfilter =>
    have hfilter : ¬ s.Filtered p f := hfilter
    suffices hacts : Touched f { s with nav := n } s' ↔ Acts p s f from
      hacts.trans (by rw [and_iff_right hfilter])
    unfold Acts
    split at h
    · next hf => simpa only [hf] using recvDATA_touched h
    · next hf => simpa only [hf] using recvRTS_touched h
    · next hf => simpa only [hf] using recvCTS_touched h hf
    · next hf => simpa only [hf] using recvACK_touched h hf
    · next hf => simpa only [hf] using recvDATA_touched h
    · cases h

/-- A clear frame for another station is left alone exactly if it is filtered or its handler does
    nothing. -/
theorem own_only_iff (p : DcfConfig) (now : ℕ) (s s' : Dcf) (f : Frame) (hf : s.epktRx = some f)
    (hc : s.Clear f) (h : s.recvHandler p now = .ok s') :
    OwnOnly p f s s' ↔ f.dh_addr1 = p.mac_ ∨ s.Filtered p f ∨ ¬ Acts p s f := by
  unfold recvHandler at h
  rw [hf] at h
  obtain ⟨-, h⟩ := assert_bind_ok h
  obtain ⟨t, ht, h⟩ := bind_ok h
  obtain ⟨-, h⟩ := assert_bind_ok h
  unfold arrive at ht
  rw [if_pos hc] at ht
  have hst : Touched f s s' ↔ Touched f s t := by
    cases h
    obtain ⟨b, hb, -⟩ := setRxState_spec now { t with epktRx := none } .MAC_IDLE
    rw [hb]
    rfl
  rw [ownOnly_iff_touched, hst, recvFrame_touched ht]
  tauto

/-- An RTS from station 2 for station 3. -/
def foreignRTS : Frame := ⟨.RTS, 100, 3, 2, 20, false⟩

/-- A promiscuous station answers an RTS for another one. -/
theorem own_only_iff_promiscuous :
    ∃ s', { init true with rx_state := .MAC_RECV, epktRx := some foreignRTS }.recvHandler station 50 = .ok s' ∧
      (OwnOnly station foreignRTS { init true with rx_state := .MAC_RECV, epktRx := some foreignRTS } s' ↔
        foreignRTS.dh_addr1 = station.mac_ ∨
          { init true with rx_state := .MAC_RECV, epktRx := some foreignRTS }.Filtered station foreignRTS ∨
          ¬ Acts station { init true with rx_state := .MAC_RECV, epktRx := some foreignRTS } foreignRTS) :=
  ⟨_, rfl, own_only_iff station 50 _ _ foreignRTS rfl (by decide) rfl⟩

/-- A station that listens to others sends a CTS for an RTS that is not for it. -/
theorem foreign_rts_answered :
    ¬ ∀ (on : Bool) (acts : List (ℕ × Action)) (s s' : Dcf) (f : Frame) (now : ℕ),
      Run.exec (step station) (init on) acts = .ok s → s.epktRx = some f → s.Clear f →
      { s with mhRecv := .stopped }.recvHandler station now = .ok s' → OwnOnly station f s s' := by
  intro h
  have hown := h true [(0, .recv foreignRTS (.capture 0))]
    { init true with rx_state := .MAC_RECV, epktRx := some foreignRTS, mhRecv := .started } _ foreignRTS 50
    (by decide) rfl (by decide) rfl
  exact absurd (hown.made (by decide)) (by decide)

end Dcf

end Wlan
