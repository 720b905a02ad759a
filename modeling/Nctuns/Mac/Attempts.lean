import Nctuns.Mac.Dcf

/-!
# The attempts to send one frame

What the retry counters are for. A frame that needs one gets an RTS before each transmission; the station
rests, or waits for the CTS or for the ACK. `Move` is what may happen to the frame, and `Balanced` says
that the counters count the attempts of the frame that is there.
-/

namespace Wlan

/-- What the station waits for. -/
inductive Phase where
  | resting
  | cts
  | ack
  deriving DecidableEq, Repr

/-- The frame, whether its RTS is still to be answered, the counters and the attempts. -/
structure Attempts where
  frame : Option Frame
  rts : Bool
  phase : Phase
  ssrc : ℕ
  slrc : ℕ
  rtsTries : ℕ
  dataTries : ℕ
  drops : List Dropped

namespace Attempts

open Dcf (Plain Due limit)

variable (p : DcfConfig)

inductive Move : Attempts → Attempts → Prop where
  | stay (a : Attempts) : Move a a
  | accept (a : Attempts) (f : Frame) : a.frame = none →
      Move a { a with frame := some f, rts := decide (¬ Plain p f), rtsTries := 0, dataTries := 0 }
  | redo (a : Attempts) (f : Frame) : a.frame = some f → a.phase = .resting → a.rts = false →
      Move a { a with rts := decide (¬ Plain p f) }
  | sendRTS (a : Attempts) : a.rts = true → a.phase = .resting →
      Move a { a with phase := .cts, rtsTries := a.rtsTries + 1 }
  | sendFrame (a : Attempts) (f : Frame) : a.frame = some f → a.rts = false → a.phase = .resting →
      Move a { a with phase := .ack, dataTries := a.dataTries + 1 }
  | answered (a : Attempts) : a.phase = .cts →
      Move a { a with rts := false, phase := .resting, ssrc := 0, rtsTries := 0 }
  | acknowledged (a : Attempts) (f : Frame) : a.frame = some f → a.phase = .ack →
      Move a { a with
        frame := none
        phase := .resting
        ssrc := if f.pktlen < p.aRTSThreshold then 0 else a.ssrc
        slrc := if f.pktlen < p.aRTSThreshold then a.slrc else 0 }
  | noCTS (a : Attempts) : a.phase = .cts → a.ssrc + 1 < aShortRetryLimit →
      Move a { a with phase := .resting, ssrc := a.ssrc + 1 }
  | rtsFailed (a : Attempts) : a.phase = .cts → aShortRetryLimit ≤ a.ssrc + 1 → a.slrc = 0 →
      Move a { a with
        frame := none
        rts := false
        phase := .resting
        ssrc := 0
        drops := a.drops ++ [.rts a.rtsTries] }
  | noACKShort (a : Attempts) (f : Frame) : a.frame = some f → f.dh_addr1 ≠ etherbroadcastaddr →
      f.pktlen < p.aRTSThreshold → a.phase = .ack → a.ssrc + 1 ≤ aShortRetryLimit →
      Move a { a with phase := .resting, ssrc := a.ssrc + 1 }
  | noACKLong (a : Attempts) (f : Frame) : a.frame = some f → f.dh_addr1 ≠ etherbroadcastaddr →
      ¬ f.pktlen < p.aRTSThreshold → a.phase = .ack → a.slrc + 1 ≤ aLongRetryLimit →
      Move a { a with rts := true, phase := .resting, slrc := a.slrc + 1 }
  | shortFailed (a : Attempts) (f : Frame) : a.frame = some f → f.dh_addr1 ≠ etherbroadcastaddr →
      f.pktlen < p.aRTSThreshold → a.phase = .ack → aShortRetryLimit < a.ssrc + 1 →
      Move a { a with
        frame := none
        phase := .resting
        ssrc := 0
        drops := a.drops ++ [.data f.pktlen a.dataTries] }
  | longFailed (a : Attempts) (f : Frame) : a.frame = some f → f.dh_addr1 ≠ etherbroadcastaddr →
      ¬ f.pktlen < p.aRTSThreshold → a.phase = .ack → aLongRetryLimit < a.slrc + 1 →
      Move a { a with
        frame := none
        phase := .resting
        slrc := 0
        drops := a.drops ++ [.data f.pktlen a.dataTries] }
  | broadcast (a : Attempts) (f : Frame) : a.frame = some f → f.dh_addr1 = etherbroadcastaddr →
      a.phase = .ack → Move a { a with frame := none, phase := .resting }

/-- The failed attempts are all but the one that is under way. -/
def under (a : Attempts) (w : Phase) : ℕ := if a.phase = w then 1 else 0

/-- The counters count the attempts of `f`. -/
structure Account (f : Frame) (a : Attempts) : Prop where
  cts : a.phase = .cts → a.rts = true
  ack : a.phase = .ack → a.rts = false
  plain : Plain p f → a.rts = false ∧ a.rtsTries = 0 ∧ a.slrc = 0
  broadcast : f.dh_addr1 = etherbroadcastaddr → a.ssrc = 0 ∧ a.dataTries = a.under .ack
  short : f.pktlen < p.aRTSThreshold → f.dh_addr1 ≠ etherbroadcastaddr →
    a.dataTries = a.ssrc + a.under .ack ∧ a.ssrc ≤ aShortRetryLimit
  longRts : ¬ Plain p f →
    a.rtsTries = a.ssrc + a.under .cts ∧ a.ssrc < aShortRetryLimit ∧ (a.rts = false → a.ssrc = 0)
  longData : ¬ Plain p f → a.dataTries = a.slrc + a.under .ack ∧ a.slrc ≤ aLongRetryLimit

structure Balanced (a : Attempts) : Prop where
  empty : a.frame = none → a.rts = false ∧ a.phase = .resting ∧ a.ssrc = 0 ∧ a.slrc = 0
  frame : ∀ f, a.frame = some f → Account p f a
  rtsTries : a.rtsTries ≤ aShortRetryLimit
  drops : ∀ d ∈ a.drops, Due p d

variable {p} {a b : Attempts}

theorem Balanced.rts_frame (h : Balanced p a) (hr : a.rts = true) : ∃ f, a.frame = some f := by
  cases hf : a.frame with
  | none =>
    have := (h.empty hf).1
    simp [hr] at this
  | some f => exact ⟨f, rfl⟩

/-- A frame with an RTS before it is not plain. -/
theorem Balanced.long (h : Balanced p a) {f : Frame} (hf : a.frame = some f) (hr : a.rts = true) :
    ¬ Plain p f := by
  intro hp
  have := ((h.frame f hf).plain hp).1
  simp [hr] at this

theorem drops_snoc {d : Dropped} (h : ∀ d ∈ a.drops, Due p d) (hd : Due p d) :
    ∀ d' ∈ a.drops ++ [d], Due p d' := by
  intro d' hd'
  rcases List.mem_append.1 hd' with hd' | hd'
  · exact h d' hd'
  · obtain rfl := List.mem_singleton.1 hd'
    exact hd

theorem not_plain {f : Frame} (hb : f.dh_addr1 ≠ etherbroadcastaddr)
    (hl : ¬ f.pktlen < p.aRTSThreshold) : ¬ Plain p f := by
  rintro (h | h)
  · exact hl h
  · exact hb h

/-- Who waits has a frame. -/
theorem Balanced.exists_frame (h : Balanced p a) (hp : a.phase ≠ .resting) : ∃ f, a.frame = some f := by
  cases hf : a.frame with
  | none => exact absurd (h.empty hf).2.1 hp
  | some f => exact ⟨f, rfl⟩

theorem under_self {w : Phase} (h : a.phase = w) : a.under w = 1 := if_pos h

theorem under_of_ne {w : Phase} (h : a.phase ≠ w) : a.under w = 0 := if_neg h

/-- The account of a frame with an RTS before each transmission. -/
theorem Account.ofLong {f : Frame} (hl : ¬ Plain p f) (hcts : a.phase = .cts → a.rts = true)
    (hack : a.phase = .ack → a.rts = false)
    (hrts : a.rtsTries = a.ssrc + a.under .cts ∧ a.ssrc < aShortRetryLimit ∧ (a.rts = false → a.ssrc = 0))
    (hdata : a.dataTries = a.slrc + a.under .ack ∧ a.slrc ≤ aLongRetryLimit) : Account p f a :=
  ⟨hcts, hack, fun h => absurd h hl, fun h => absurd (Or.inr h) hl, fun h _ => absurd (Or.inl h) hl,
    fun _ => hrts, fun _ => hdata⟩

/-- The account of a frame without RTS. -/
theorem Account.ofPlain {f : Frame} (hpl : Plain p f) (hcts : a.phase ≠ .cts) (hr : a.rts = false)
    (ht : a.rtsTries = 0) (hl : a.slrc = 0)
    (hb : f.dh_addr1 = etherbroadcastaddr → a.ssrc = 0 ∧ a.dataTries = a.under .ack)
    (hs : f.pktlen < p.aRTSThreshold → f.dh_addr1 ≠ etherbroadcastaddr →
      a.dataTries = a.ssrc + a.under .ack ∧ a.ssrc ≤ aShortRetryLimit) : Account p f a :=
  ⟨fun h => absurd h hcts, fun _ => hr, fun _ => ⟨hr, ht, hl⟩, hb, hs, fun h => absurd hpl h,
    fun h => absurd hpl h⟩

/-- A state with a frame. -/
theorem Balanced.keep {f : Frame} (hf : b.frame = some f) (hA : Account p f b)
    (ht : b.rtsTries ≤ aShortRetryLimit) (hd : ∀ d ∈ b.drops, Due p d) : Balanced p b where
  empty h := by
    rw [hf] at h
    cases h
  frame g hg := by
    obtain rfl := Option.some.inj (hf.symm.trans hg)
    exact hA
  rtsTries := ht
  drops := hd

/-- A state without a frame. -/
theorem Balanced.done (hf : b.frame = none)
    (he : b.rts = false ∧ b.phase = .resting ∧ b.ssrc = 0 ∧ b.slrc = 0)
    (ht : b.rtsTries ≤ aShortRetryLimit) (hd : ∀ d ∈ b.drops, Due p d) : Balanced p b where
  empty _ := he
  frame g hg := by
    rw [hf] at hg
    cases hg
  rtsTries := ht
  drops := hd

/-- A frame is given to a station at rest. -/
theorem Balanced.accept (ha : Balanced p a) (hf : a.frame = none) (f : Frame) : Balanced p
    { a with frame := some f, rts := decide (¬ Plain p f), rtsTries := 0, dataTries := 0 } := by
  obtain ⟨hr, hp, hs, hl⟩ := ha.empty hf
  have hcts : a.under .cts = 0 := under_of_ne (by simp [hp])
  have hack : a.under .ack = 0 := under_of_ne (by simp [hp])
  refine .keep rfl ?_ (Nat.zero_le _) ha.drops
  by_cases hpl : Plain p f
  · refine .ofPlain hpl (by simp [hp]) (by simp [hpl]) rfl hl (fun _ => ⟨hs, hack.symm⟩) fun _ _ => ⟨?_, ?_⟩
    · show 0 = a.ssrc + a.under .ack
      omega
    · show a.ssrc ≤ aShortRetryLimit
      simp [hs]
  · refine .ofLong hpl (by simp [hp]) (by simp [hp]) ⟨?_, ?_, by simp [hpl]⟩ ⟨?_, ?_⟩
    · show 0 = a.ssrc + a.under .cts
      omega
    · show a.ssrc < aShortRetryLimit
      simp [hs, aShortRetryLimit]
    · show 0 = a.slrc + a.under .ack
      omega
    · show a.slrc ≤ aLongRetryLimit
      simp [hl]

/-- The RTS is sent: one more attempt is under way. -/
theorem Balanced.sendRTS (ha : Balanced p a) (hr : a.rts = true) (hp : a.phase = .resting) :
    Balanced p { a with phase := .cts, rtsTries := a.rtsTries + 1 } := by
  obtain ⟨f, hf⟩ := ha.rts_frame hr
  have hl := ha.long hf hr
  obtain ⟨hrts, hssrc, -⟩ := (ha.frame f hf).longRts hl
  obtain ⟨hdata, hslrc⟩ := (ha.frame f hf).longData hl
  rw [under_of_ne (by simp [hp])] at hrts hdata
  refine .keep hf (.ofLong hl (fun _ => hr) (by simp) ⟨?_, hssrc, by simp [hr]⟩ ⟨hdata, hslrc⟩) ?_ ha.drops
  · show a.rtsTries + 1 = a.ssrc + 1
    omega
  · show a.rtsTries + 1 ≤ aShortRetryLimit
    omega

/-- The frame is sent: one more attempt is under way. -/
theorem Balanced.sendFrame (ha : Balanced p a) {f : Frame} (hf : a.frame = some f) (hr : a.rts = false)
    (hp : a.phase = .resting) : Balanced p { a with phase := .ack, dataTries := a.dataTries + 1 } := by
  have A := ha.frame f hf
  have hcts : a.under .cts = 0 := under_of_ne (by simp [hp])
  have hack : a.under .ack = 0 := under_of_ne (by simp [hp])
  refine .keep hf ?_ ha.rtsTries ha.drops
  by_cases hpl : Plain p f
  · obtain ⟨-, ht, hl⟩ := A.plain hpl
    refine .ofPlain hpl (by simp) hr ht hl (fun h => ?_) fun h h' => ?_
    · obtain ⟨hs, hd⟩ := A.broadcast h
      exact ⟨hs, by show a.dataTries + 1 = 1; omega⟩
    · obtain ⟨hd, hs⟩ := A.short h h'
      exact ⟨by show a.dataTries + 1 = a.ssrc + 1; omega, hs⟩
  · obtain ⟨hrts, hssrc, hzero⟩ := A.longRts hpl
    obtain ⟨hdata, hslrc⟩ := A.longData hpl
    refine .ofLong hpl (by simp) (fun _ => hr) ⟨?_, hssrc, hzero⟩ ⟨?_, hslrc⟩
    · show a.rtsTries = a.ssrc + 0
      omega
    · show a.dataTries + 1 = a.slrc + 1
      omega

/-- A station that waits for the CTS has a frame with RTS. -/
theorem Balanced.waiting (ha : Balanced p a) (hp : a.phase = .cts) :
    ∃ f, a.frame = some f ∧ ¬ Plain p f ∧ a.rts = true := by
  obtain ⟨f, hf⟩ := ha.exists_frame (by simp [hp])
  have hr := (ha.frame f hf).cts hp
  exact ⟨f, hf, ha.long hf hr, hr⟩

/-- Every move keeps the account of the frame, or begins or ends it. -/
theorem Move.balanced (h : Move p a b) (ha : Balanced p a) : Balanced p b := by
  cases h with
  | stay => exact ha
  | accept f hf => exact ha.accept hf f
  | redo f hf hp hr =>
    have A := ha.frame f hf
    refine .keep hf ⟨by simp [hp], by simp [hp], ?_, A.broadcast, A.short, ?_, A.longData⟩ ha.rtsTries ha.drops
    · intro h
      simp [h, (A.plain h).2]
    · intro h
      exact ⟨(A.longRts h).1, (A.longRts h).2.1, by simp [h]⟩
  | sendRTS hr hp => exact ha.sendRTS hr hp
  | sendFrame f hf hr hp => exact ha.sendFrame hf hr hp
  | answered hp =>
    obtain ⟨f, hf, hl, -⟩ := ha.waiting hp
    obtain ⟨hdata, hslrc⟩ := (ha.frame f hf).longData hl
    rw [under_of_ne (by simp [hp])] at hdata
    exact .keep hf (.ofLong hl (by simp) (by simp) ⟨rfl, by simp [aShortRetryLimit], fun _ => rfl⟩
      ⟨hdata, hslrc⟩) (Nat.zero_le _) ha.drops
  | acknowledged f hf hp =>
    have A := ha.frame f hf
    refine .done rfl ⟨A.ack hp, rfl, ?_⟩ ha.rtsTries ha.drops
    by_cases hs : f.pktlen < p.aRTSThreshold
    · simp [hs, (A.plain (.inl hs)).2.2]
    · by_cases hb : f.dh_addr1 = etherbroadcastaddr
      · simp [hs, (A.broadcast hb).1]
      · simp [hs, (A.longRts (not_plain hb hs)).2.2 (A.ack hp)]
  | noCTS hp hs =>
    obtain ⟨f, hf, hl, hr⟩ := ha.waiting hp
    obtain ⟨hrts, -, -⟩ := (ha.frame f hf).longRts hl
    obtain ⟨hdata, hslrc⟩ := (ha.frame f hf).longData hl
    rw [under_self hp] at hrts
    rw [under_of_ne (by simp [hp])] at hdata
    exact .keep hf (.ofLong hl (by simp) (by simp) ⟨hrts, hs, by simp [hr]⟩ ⟨hdata, hslrc⟩) ha.rtsTries ha.drops
  | rtsFailed hp hs hl =>
    obtain ⟨f, hf, hlong, -⟩ := ha.waiting hp
    obtain ⟨hrts, hssrc, -⟩ := (ha.frame f hf).longRts hlong
    rw [under_self hp] at hrts
    refine .done rfl ⟨rfl, rfl, rfl, hl⟩ ha.rtsTries (drops_snoc ha.drops ?_)
    show a.rtsTries = aShortRetryLimit
    omega
  | noACKShort f hf hb hs hp hc =>
    have A := ha.frame f hf
    obtain ⟨hr, ht, hl⟩ := A.plain (.inl hs)
    have hdata := (A.short hs hb).1
    rw [under_self hp] at hdata
    exact .keep hf (.ofPlain (.inl hs) (by simp) hr ht hl (fun h => absurd h hb) fun _ _ => ⟨hdata, hc⟩)
      ha.rtsTries ha.drops
  | noACKLong f hf hb hs hp hc =>
    have hpl := not_plain hb hs
    obtain ⟨hrts, hssrc, -⟩ := (ha.frame f hf).longRts hpl
    have hdata := ((ha.frame f hf).longData hpl).1
    rw [under_of_ne (by simp [hp])] at hrts
    rw [under_self hp] at hdata
    exact .keep hf (.ofLong hpl (by simp) (by simp) ⟨hrts, hssrc, by simp⟩ ⟨hdata, hc⟩) ha.rtsTries ha.drops
  | shortFailed f hf hb hs hp hc =>
    have A := ha.frame f hf
    obtain ⟨hr, -, hl⟩ := A.plain (.inl hs)
    obtain ⟨hdata, hssrc⟩ := A.short hs hb
    rw [under_self hp] at hdata
    refine .done rfl ⟨hr, rfl, rfl, hl⟩ ha.rtsTries (drops_snoc ha.drops ?_)
    simp only [Due, limit, hs, if_true]
    omega
  | longFailed f hf hb hs hp hc =>
    have A := ha.frame f hf
    have hpl := not_plain hb hs
    obtain ⟨hdata, hslrc⟩ := A.longData hpl
    rw [under_self hp] at hdata
    refine .done rfl ⟨A.ack hp, rfl, (A.longRts hpl).2.2 (A.ack hp), rfl⟩ ha.rtsTries (drops_snoc ha.drops ?_)
    simp only [Due, limit, hs, if_false]
    omega
  | broadcast f hf hb hp =>
    have A := ha.frame f hf
    exact .done rfl ⟨A.ack hp, rfl, (A.broadcast hb).1, (A.plain (.inr hb)).2.2⟩ ha.rtsTries ha.drops

/-- The attempts of the frame stay within its limit. -/
theorem Balanced.dataTries_le (h : Balanced p a) {f : Frame} (hf : a.frame = some f) :
    a.dataTries ≤ limit p f.pktlen + 1 := by
  have A := h.frame f hf
  have hu : a.under .ack ≤ 1 := by
    unfold under
    split <;> omega
  by_cases hb : f.dh_addr1 = etherbroadcastaddr
  · have := (A.broadcast hb).2
    omega
  · by_cases hs : f.pktlen < p.aRTSThreshold
    · have := A.short hs hb
      simp only [limit, hs, if_true]
      omega
    · have := A.longData (not_plain hb hs)
      simp only [limit, hs, if_false]
      omega

end Attempts

end Wlan
