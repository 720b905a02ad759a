import Nctuns.Switch.SpanningTree

/-!
# Proofs about the spanning tree protocol

What a handler does to the ports is said once for each handler. In every run a claim about a root, old
or new, is backed by a walk to it that is no longer than the cost says.
-/

namespace SpanTree

variable {s s' : Sw} {n m : UInt8} {info : SpanINFO}

namespace Sw

/-! ### Hello packets -/

/-- A hello packet leaves through the port. -/
def Sends (s : Sw) (n : UInt8) : Prop :=
  s.SpanTreeTbl0.RootID = s.nid ∨ NoData (s.port n) ∨
    (s.SpanTreeTbl0.RootPort ≠ n ∧ s.Designated (s.port n))

/-- The port is closed. -/
def Closes (s : Sw) (n : UInt8) : Prop :=
  s.SpanTreeTbl0.RootID ≠ s.nid ∧ ¬ NoData (s.port n) ∧ s.SpanTreeTbl0.RootPort ≠ n ∧
    ¬ s.Designated (s.port n)

/-- The port is to be opened later. -/
def Asks (s : Sw) (n : UInt8) : Prop :=
  (s.port n).PortState = false ∧ (s.Sends n ∨ s.SpanTreeTbl0.RootPort = n)

/-- A port is closed where the switch neither sends nor has its root port. -/
theorem closes_iff : s.Closes n ↔ ¬ (s.Sends n ∨ s.SpanTreeTbl0.RootPort = n) := by
  unfold Closes Sends
  tauto

/-- What does not change when ports do. -/
structure SameSwitch (s s' : Sw) : Prop where
  nid : s'.nid = s.nid
  maxAge : s'.MaxAge = s.MaxAge
  list : s'.PortList = s.PortList
  tbl : s'.SpanTreeTbl0 = s.SpanTreeTbl0

theorem SameSwitch.refl (s : Sw) : SameSwitch s s := ⟨rfl, rfl, rfl, rfl⟩

theorem SameSwitch.trans {s'' : Sw} (h : SameSwitch s s') (h' : SameSwitch s' s'') :
    SameSwitch s s'' :=
  ⟨h'.nid.trans h.nid, h'.maxAge.trans h.maxAge, h'.list.trans h.list, h'.tbl.trans h.tbl⟩

/-- Whether a port sends depends on its record and on the switch. -/
theorem SameSwitch.sends (h : SameSwitch s s') (hp : s'.port n = s.port n) :
    s'.Sends n ↔ s.Sends n := by
  unfold Sends Designated
  rw [h.nid, h.tbl, hp]

/-- The loop of `SendSpanTreePacket` over the ports `l`. -/
structure Sent (info : SpanINFO) (l : List UInt8) (h h' : Handled) : Prop where
  same : SameSwitch h.sw h'.sw
  closed : ∀ n ∈ l, h.sw.Closes n → h'.sw.port n = { h.sw.port n with PortState := false }
  kept : ∀ n, (n ∈ l → ¬ h.sw.Closes n) → h'.sw.port n = h.sw.port n
  packets : ∀ n i, (n, Packet.spanINFO i) ∈ h'.packets ↔
    (n, Packet.spanINFO i) ∈ h.packets ∨ (n ∈ l ∧ h.sw.Sends n ∧ i = info)
  opens : ∀ n, n ∈ h'.opens ↔ n ∈ h.opens ∨ (n ∈ l ∧ h.sw.Asks n)

theorem Sent.nil (info : SpanINFO) (h : Handled) : Sent info [] h h where
  same := .refl _
  closed n hn := absurd hn List.not_mem_nil
  kept _ _ := rfl
  packets n i := by simp
  opens n := by simp

/-- The hello packet leaves at one port, then at the others. -/
theorem Sent.cons {h h' h'' : Handled} {l : List UInt8} (hn : n ∉ l) (h₁ : Sent info [n] h h')
    (h₂ : Sent info l h' h'') : Sent info (n :: l) h h'' := by
  have hport : ∀ m ∈ l, h'.sw.port m = h.sw.port m := fun m hm =>
    h₁.kept m fun hmn => absurd (List.mem_singleton.1 hmn ▸ hm) hn
  have hsends : ∀ m ∈ l, (h'.sw.Sends m ↔ h.sw.Sends m) := fun m hm => h₁.same.sends (hport m hm)
  have hcloses : ∀ m ∈ l, (h'.sw.Closes m ↔ h.sw.Closes m) := by
    intro m hm
    rw [closes_iff, closes_iff, hsends m hm, h₁.same.tbl]
  have hasks : ∀ m ∈ l, (h'.sw.Asks m ↔ h.sw.Asks m) := by
    intro m hm
    unfold Asks
    rw [hport m hm, hsends m hm, h₁.same.tbl]
  refine ⟨h₁.same.trans h₂.same, ?_, ?_, ?_, ?_⟩
  · intro m hm hc
    rcases List.mem_cons.1 hm with rfl | hm
    · rw [h₂.kept m fun hml => absurd hml hn, h₁.closed m (List.mem_singleton_self m) hc]
    · rw [h₂.closed m hm ((hcloses m hm).2 hc), hport m hm]
  · intro m hc
    by_cases hm : m ∈ l
    · rw [h₂.kept m fun _ => mt (hcloses m hm).1 (hc (List.mem_cons_of_mem _ hm)), hport m hm]
    · rw [h₂.kept m fun hml => absurd hml hm, h₁.kept m fun hmn => hc (List.mem_singleton.1 hmn ▸
        List.mem_cons_self)]
  · intro m i
    rw [h₂.packets, h₁.packets, List.mem_singleton, List.mem_cons, or_assoc]
    by_cases hm : m ∈ l
    · rw [hsends m hm]
      tauto
    · tauto
  · intro m
    rw [h₂.opens, h₁.opens, List.mem_singleton, List.mem_cons, or_assoc]
    by_cases hm : m ∈ l
    · rw [hasks m hm]
      tauto
    · tauto

/-- A port through which the packet goes, or which is the root port. -/
theorem schedule_sent {h h' : Handled} (hsw : h'.sw = h.sw) (hopens : h'.opens = h.opens)
    (hpackets : ∀ m i, (m, Packet.spanINFO i) ∈ h'.packets ↔
      (m, Packet.spanINFO i) ∈ h.packets ∨ (m = n ∧ h.sw.Sends m ∧ i = info))
    (hs : h.sw.Sends n ∨ h.sw.SpanTreeTbl0.RootPort = n) : Sent info [n] h (schedule h' n) := by
  have hsw' : (schedule h' n).sw = h.sw := by
    unfold schedule
    split <;> exact hsw
  have hpackets' : (schedule h' n).packets = h'.packets := by
    unfold schedule
    split <;> rfl
  refine ⟨hsw' ▸ .refl _, ?_, fun m _ => by rw [hsw'], ?_, ?_⟩
  · intro m hm hc
    rw [List.mem_singleton.1 hm] at hc
    exact absurd hs (closes_iff.1 hc)
  · intro m i
    rw [hpackets', hpackets, List.mem_singleton]
  · intro m
    rw [List.mem_singleton]
    unfold schedule
    rw [hsw]
    by_cases hclosed : (h.sw.port n).PortState = false
    · rw [if_pos hclosed, List.mem_append, List.mem_singleton, hopens]
      constructor
      · rintro (hm | rfl)
        · exact .inl hm
        · exact .inr ⟨rfl, hclosed, hs⟩
      · rintro (hm | ⟨rfl, -⟩)
        · exact .inl hm
        · exact .inr rfl
    · rw [if_neg hclosed, hopens]
      constructor
      · exact .inl
      · rintro (hm | ⟨rfl, hask⟩)
        · exact hm
        · exact absurd hask.1 hclosed

/-- A port at which the switch sends is scheduled. -/
theorem sendTo_sent {h : Handled} (hs : h.sw.Sends n) :
    Sent info [n] h (schedule (sendTo h n info) n) := by
  refine schedule_sent rfl rfl ?_ (.inl hs)
  intro m i
  show _ ∈ h.packets ++ [(n, Packet.spanINFO info)] ↔ _
  rw [List.mem_append, List.mem_singleton, Prod.mk.injEq, Packet.spanINFO.injEq]
  constructor
  · rintro (hm | ⟨rfl, rfl⟩)
    · exact .inl hm
    · exact .inr ⟨rfl, hs, rfl⟩
  · rintro (hm | ⟨rfl, -, rfl⟩)
    · exact .inl hm
    · exact .inr ⟨rfl, rfl⟩

/-- The turn of one port. -/
theorem sendPort_sent (info : SpanINFO) (h : Handled) (n : UInt8) :
    Sent info [n] h (sendPort info h n) := by
  unfold sendPort
  by_cases hroot : h.sw.SpanTreeTbl0.RootID = h.sw.nid
  · rw [if_pos hroot]
    exact sendTo_sent (.inl hroot)
  rw [if_neg hroot]
  by_cases hdata : NoData (h.sw.port n)
  · rw [if_pos hdata]
    exact sendTo_sent (.inr (.inl hdata))
  rw [if_neg hdata]
  by_cases hport : h.sw.SpanTreeTbl0.RootPort ≠ n
  · rw [if_pos hport]
    by_cases hdes : h.sw.Designated (h.sw.port n)
    · rw [if_pos hdes]
      exact sendTo_sent (.inr (.inr ⟨hport, hdes⟩))
    rw [if_neg hdes]
    have hcloses : h.sw.Closes n := ⟨hroot, hdata, hport, hdes⟩
    have hsends : ¬ h.sw.Sends n := fun hs => closes_iff.1 hcloses (.inl hs)
    have hpackets : ∀ m i, (m, Packet.spanINFO i) ∈ h.packets ↔
        (m, Packet.spanINFO i) ∈ h.packets ∨ (m = n ∧ h.sw.Sends m ∧ i = info) := by
      intro m i
      constructor
      · exact .inl
      · rintro (hm | ⟨rfl, hs, -⟩)
        · exact hm
        · exact absurd hs hsends
    have hopens : ∀ m, m ∈ h.opens ↔ m ∈ h.opens ∨ (m = n ∧ h.sw.Asks m) := by
      intro m
      constructor
      · exact .inl
      · rintro (hm | ⟨rfl, hask⟩)
        · exact hm
        · exact absurd hask.2 (closes_iff.1 hcloses)
    by_cases hopen : (h.sw.port n).PortState = true
    · rw [if_pos hopen]
      refine ⟨⟨rfl, rfl, rfl, rfl⟩, ?_, ?_, ?_, ?_⟩
      · intro m hm _
        rw [List.mem_singleton.1 hm]
        exact Function.update_self ..
      · intro m hm
        have hne : m ≠ n := fun he => hm (List.mem_singleton.2 he) (he ▸ hcloses)
        exact Function.update_of_ne hne ..
      · intro m i
        rw [List.mem_singleton, ← hpackets]
        show _ ∈ h.packets ++ _ ↔ _
        rw [List.mem_append]
        constructor
        · rintro (hm | hm)
          · exact hm
          · unfold SpanTreeChange at hm
            dsimp only at hm
            split at hm
            · cases List.mem_singleton.1 hm
            · cases hm
        · exact .inl
      · intro m
        rw [List.mem_singleton]
        exact hopens m
    · rw [if_neg hopen]
      refine ⟨.refl _, ?_, fun _ _ => rfl, ?_, ?_⟩
      · intro m hm _
        have hfalse : (h.sw.port n).PortState = false := by simpa using hopen
        rw [List.mem_singleton.1 hm, ← hfalse]
      · intro m i
        rw [List.mem_singleton]
        exact hpackets m i
      · intro m
        rw [List.mem_singleton]
        exact hopens m
  · rw [if_neg hport]
    have hport : h.sw.SpanTreeTbl0.RootPort = n := not_not.1 hport
    refine schedule_sent rfl rfl ?_ (.inr hport)
    intro m i
    constructor
    · exact .inl
    · rintro (hm | ⟨rfl, hs, -⟩)
      · exact hm
      · rcases hs with hs | hs | ⟨hne, -⟩
        · exact absurd hs hroot
        · exact absurd hs hdata
        · exact absurd hport hne

/-- The loop over the ports. -/
theorem foldl_sent {l : List UInt8} (info : SpanINFO) (hl : l.Nodup) (h : Handled) :
    Sent info l h (l.foldl (sendPort info) h) := by
  induction l generalizing h with
  | nil => exact .nil info h
  | cons n l ih =>
    obtain ⟨hn, hl⟩ := List.nodup_cons.1 hl
    exact .cons hn (sendPort_sent info h n) (ih hl _)

/-- Only the flags and the packets about topology changes differ. -/
theorem Sent.congr {l : List UInt8} {h₀ h₁ h₀' h₁' : Handled} (h : Sent info l h₀ h₁)
    (hs₀ : SameSwitch h₀.sw h₀'.sw) (hp₀ : h₀'.sw.port = h₀.sw.port) (ho₀ : h₀'.opens = h₀.opens)
    (hm₀ : ∀ n i, (n, Packet.spanINFO i) ∈ h₀'.packets ↔ (n, Packet.spanINFO i) ∈ h₀.packets)
    (hs₁ : SameSwitch h₁.sw h₁'.sw) (hp₁ : h₁'.sw.port = h₁.sw.port) (ho₁ : h₁'.opens = h₁.opens)
    (hm₁ : h₁'.packets = h₁.packets) : Sent info l h₀' h₁' := by
  have hsends : ∀ n, (h₀'.sw.Sends n ↔ h₀.sw.Sends n) := fun n => hs₀.sends (congrFun hp₀ n)
  have hcloses : ∀ n, (h₀'.sw.Closes n ↔ h₀.sw.Closes n) := by
    intro n
    rw [closes_iff, closes_iff, hsends, hs₀.tbl]
  have hasks : ∀ n, (h₀'.sw.Asks n ↔ h₀.sw.Asks n) := by
    intro n
    unfold Asks
    rw [hp₀, hsends, hs₀.tbl]
  refine ⟨?_, ?_, ?_, ?_, ?_⟩
  · exact ⟨hs₁.nid.trans (h.same.nid.trans hs₀.nid.symm), hs₁.maxAge.trans (h.same.maxAge.trans
      hs₀.maxAge.symm), hs₁.list.trans (h.same.list.trans hs₀.list.symm), hs₁.tbl.trans
      (h.same.tbl.trans hs₀.tbl.symm)⟩
  · intro n hn hc
    rw [hp₀, hp₁]
    exact h.closed n hn ((hcloses n).1 hc)
  · intro n hn
    rw [hp₀, hp₁]
    exact h.kept n fun hl => mt (hcloses n).2 (hn hl)
  · intro n i
    rw [hm₁, h.packets, hm₀, hsends]
  · intro n
    rw [ho₁, h.opens, ho₀, hasks]

/-- The configuration of a switch in its hello packets. -/
def Claims (s : Sw) (info : SpanINFO) : Prop :=
  info.RootID = s.SpanTreeTbl0.RootID ∧ info.Cost = s.SpanTreeTbl0.Cost ∧ info.Bridge = s.nid

/-- **Hello.** What `SendSpanTreePacket` does to every port. -/
theorem send_sent (hl : s.PortList.Nodup) :
    ∃ info, s.Claims info ∧ Sent info s.PortList ⟨s, [], []⟩ s.SendSpanTreePacket := by
  refine ⟨⟨s.SpanTreeTbl0.RootID, s.SpanTreeTbl0.Cost, s.nid,
    (if s.TCNFlag then 128 else 0) + if s.FlushSwTblFlag then 1 else 0⟩, ⟨rfl, rfl, rfl⟩, ?_⟩
  have hr : ∃ r, (if s.TCNFlag = true ∧ s.SpanTreeTbl0.RootPort ≠ 0 then s.SpanTreeChange else (s, [])) = r ∧
      SameSwitch s r.1 ∧ r.1.port = s.port ∧ ∀ n i, (n, Packet.spanINFO i) ∉ r.2 := by
    refine ⟨_, rfl, ?_⟩
    split
    · refine ⟨⟨rfl, rfl, rfl, rfl⟩, rfl, fun n i hm => ?_⟩
      unfold SpanTreeChange at hm
      dsimp only at hm
      split at hm
      · cases List.mem_singleton.1 hm
      · cases hm
    · exact ⟨.refl s, rfl, fun n i hm => absurd hm List.not_mem_nil⟩
  obtain ⟨r, hr, hsame, hport, hpackets⟩ := hr
  unfold SendSpanTreePacket
  rw [hr]
  dsimp only
  generalize hh₀ : (⟨{ r.1 with TCAFlag := s.TCNFlag, FlushSwTblFlag := false }, r.2, []⟩ : Handled) = h₀
  have hsame₀ : SameSwitch h₀.sw s := by
    rw [← hh₀]
    exact ⟨hsame.nid.symm, hsame.maxAge.symm, hsame.list.symm, hsame.tbl.symm⟩
  have hport₀ : s.port = h₀.sw.port := by
    rw [← hh₀]
    exact hport.symm
  have hopens₀ : [] = h₀.opens := by rw [← hh₀]
  have hpackets₀ : ∀ n i, (n, Packet.spanINFO i) ∈ ([] : List (UInt8 × Packet)) ↔
      (n, Packet.spanINFO i) ∈ h₀.packets := by
    intro n i
    rw [← hh₀]
    exact ⟨fun hm => absurd hm List.not_mem_nil, fun hm => absurd hm (hpackets n i)⟩
  have hloop := foldl_sent ⟨s.SpanTreeTbl0.RootID, s.SpanTreeTbl0.Cost, s.nid,
    (if s.TCNFlag then 128 else 0) + if s.FlushSwTblFlag then 1 else 0⟩ hl h₀
  by_cases hroot : s.SpanTreeTbl0.RootPort = 0
  · rw [if_pos hroot]
    refine Sent.congr hloop ?_ ?_ ?_ ?_ ?_ ?_ ?_ ?_
    exacts [hsame₀, hport₀, hopens₀, hpackets₀, ⟨rfl, rfl, rfl, rfl⟩, rfl, rfl, rfl]
  · rw [if_neg hroot]
    refine Sent.congr hloop ?_ ?_ ?_ ?_ ?_ ?_ ?_ ?_
    exacts [hsame₀, hport₀, hopens₀, hpackets₀, .refl _, rfl, rfl, rfl]

/-! ### Time-outs -/

/-- The port has not heard anything for too long. -/
def Dies (s : Sw) (n : UInt8) : Prop :=
  (s.port n).Age < s.MaxAge ∧ ((s.port n).Age + 1) % 256 ≥ s.MaxAge

/-- The port after a check. -/
def checked (MaxAge : Nat) (p : SwPort) : SwPort :=
  if p.Age < MaxAge then
    if (p.Age + 1) % 256 ≥ MaxAge then ⟨true, 0, 0, 0, MaxAge % 256⟩
    else { p with Age := (p.Age + 1) % 256 }
  else p

/-- The loop of `CheckTimeOut` over the ports `l`. -/
structure Checked (l : List UInt8) (r r' : Handled × Bool) : Prop where
  same : SameSwitch r.1.sw r'.1.sw
  checked : ∀ n ∈ l, r'.1.sw.port n = checked r.1.sw.MaxAge (r.1.sw.port n)
  kept : ∀ n, n ∉ l → r'.1.sw.port n = r.1.sw.port n
  packets : ∀ n i, (n, Packet.spanINFO i) ∈ r'.1.packets → (n, Packet.spanINFO i) ∈ r.1.packets
  opens : r'.1.opens = r.1.opens
  death : r'.2 = true ↔ r.2 = true ∨ ∃ n ∈ l, r.1.sw.Dies n ∧ r.1.sw.SpanTreeTbl0.RootPort = n

/-- One port is checked, then the others. -/
theorem Checked.cons {r r' r'' : Handled × Bool} {l : List UInt8} (hn : n ∉ l) (h₁ : Checked [n] r r')
    (h₂ : Checked l r' r'') : Checked (n :: l) r r'' := by
  have hport : ∀ m ∈ l, r'.1.sw.port m = r.1.sw.port m := fun m hm =>
    h₁.kept m fun hmn => absurd (List.mem_singleton.1 hmn ▸ hm) hn
  refine ⟨h₁.same.trans h₂.same, ?_, ?_, fun m i hm => h₁.packets m i (h₂.packets m i hm),
    h₂.opens.trans h₁.opens, ?_⟩
  · intro m hm
    rcases List.mem_cons.1 hm with rfl | hm
    · rw [h₂.kept m hn, h₁.checked m (List.mem_singleton_self m)]
    · rw [h₂.checked m hm, hport m hm, h₁.same.maxAge]
  · intro m hm
    rw [h₂.kept m fun hml => hm (List.mem_cons_of_mem _ hml), h₁.kept m fun hmn =>
      hm (List.mem_singleton.1 hmn ▸ List.mem_cons_self)]
  · have hdies : ∀ m ∈ l, (r'.1.sw.Dies m ↔ r.1.sw.Dies m) := by
      intro m hm
      unfold Dies
      rw [hport m hm, h₁.same.maxAge]
    rw [h₂.death, h₁.death, h₁.same.tbl, or_assoc]
    refine or_congr_right ⟨?_, ?_⟩
    · rintro (⟨m, hm, hd⟩ | ⟨m, hm, hd, hroot⟩)
      · exact ⟨m, List.mem_singleton.1 hm ▸ List.mem_cons_self, hd⟩
      · exact ⟨m, List.mem_cons_of_mem _ hm, (hdies m hm).1 hd, hroot⟩
    · rintro ⟨m, hm, hd, hroot⟩
      rcases List.mem_cons.1 hm with rfl | hm
      · exact .inl ⟨m, List.mem_singleton_self m, hd, hroot⟩
      · exact .inr ⟨m, hm, (hdies m hm).2 hd, hroot⟩

/-- Opening a port leaves the switch as it is. -/
theorem openPort_same (s : Sw) (n : UInt8) : SameSwitch s (s.openPort n).1 := by
  unfold openPort
  split <;> exact ⟨rfl, rfl, rfl, rfl⟩

/-- Opening a port changes its state only. -/
theorem openPort_port (s : Sw) (n m : UInt8) :
    (s.openPort n).1.port m = if m = n then { s.port n with PortState := true } else s.port m := by
  unfold openPort
  split
  · show Function.update s.port n _ m = _
    rw [Function.update_apply]
  · rename_i hopen
    have htrue : (s.port n).PortState = true := by simpa using hopen
    split
    · rename_i heq
      rw [heq, ← htrue]
    · rfl

/-- Opening a port sends no hello packet. -/
theorem openPort_packets (s : Sw) (n m : UInt8) (i : SpanINFO) :
    (m, Packet.spanINFO i) ∉ (s.openPort n).2 := by
  intro hm
  unfold openPort SpanTreeChange at hm
  split at hm
  · dsimp only at hm
    split at hm
    · cases List.mem_singleton.1 hm
    · cases hm
  · cases hm

/-- The turn of one port. -/
theorem checkPort_checked (r : Handled × Bool) (n : UInt8) : Checked [n] r (checkPort r n) := by
  unfold checkPort
  dsimp only
  by_cases hage : (r.1.sw.port n).Age < r.1.sw.MaxAge
  · rw [if_pos hage]
    by_cases hdies : ((r.1.sw.port n).Age + 1) % 256 ≥ r.1.sw.MaxAge
    · rw [if_pos hdies]
      have hsame := openPort_same
        (r.1.sw.setPort n { r.1.sw.port n with Age := ((r.1.sw.port n).Age + 1) % 256 }) n
      have hport := openPort_port
        (r.1.sw.setPort n { r.1.sw.port n with Age := ((r.1.sw.port n).Age + 1) % 256 }) n
      have hpackets := openPort_packets
        (r.1.sw.setPort n { r.1.sw.port n with Age := ((r.1.sw.port n).Age + 1) % 256 }) n
      generalize (r.1.sw.setPort n _).openPort n = o at *
      refine ⟨⟨hsame.nid, hsame.maxAge, hsame.list, hsame.tbl⟩, ?_, ?_, ?_, rfl, ?_⟩
      · intro m hm
        have hpn := hport n
        rw [if_pos rfl] at hpn
        rw [List.mem_singleton.1 hm]
        show Function.update o.1.port n _ n = _
        rw [Function.update_self, hpn]
        unfold checked
        rw [if_pos hage, if_pos hdies]
      · intro m hm
        have hne : m ≠ n := fun he => hm (List.mem_singleton.2 he)
        show Function.update o.1.port n _ m = _
        rw [Function.update_of_ne hne, hport m, if_neg hne]
        exact Function.update_of_ne hne ..
      · intro m i hm
        rcases List.mem_append.1 hm with hm | hm
        · exact hm
        · exact absurd hm (hpackets m i)
      · show (r.2 || decide (r.1.sw.SpanTreeTbl0.RootPort = n)) = true ↔ _
        rw [Bool.or_eq_true, decide_eq_true_iff]
        refine or_congr_right ⟨fun hroot => ⟨n, List.mem_singleton_self n, ⟨hage, hdies⟩, hroot⟩, ?_⟩
        rintro ⟨m, hm, -, hroot⟩
        exact hroot.trans (List.mem_singleton.1 hm)
    · rw [if_neg hdies]
      refine ⟨⟨rfl, rfl, rfl, rfl⟩, ?_, ?_, fun _ _ hm => hm, rfl, ?_⟩
      · intro m hm
        rw [List.mem_singleton.1 hm]
        show Function.update r.1.sw.port n _ n = _
        rw [Function.update_self]
        unfold checked
        rw [if_pos hage, if_neg hdies]
      · intro m hm
        exact Function.update_of_ne (fun he => hm (List.mem_singleton.2 he)) ..
      · refine ⟨.inl, ?_⟩
        rintro (hd | ⟨m, hm, hd, -⟩)
        · exact hd
        · rw [List.mem_singleton.1 hm] at hd
          exact absurd hd.2 hdies
  · rw [if_neg hage]
    refine ⟨.refl _, ?_, fun _ _ => rfl, fun _ _ hm => hm, rfl, ?_⟩
    · intro m hm
      rw [List.mem_singleton.1 hm]
      unfold checked
      rw [if_neg hage]
    · refine ⟨.inl, ?_⟩
      rintro (hd | ⟨m, hm, hd, -⟩)
      · exact hd
      · rw [List.mem_singleton.1 hm] at hd
        exact absurd hd.1 hage

/-- The loop over the ports. -/
theorem foldl_checked {l : List UInt8} (hl : l.Nodup) (r : Handled × Bool) :
    Checked l r (l.foldl checkPort r) := by
  induction l generalizing r with
  | nil =>
    refine ⟨.refl _, fun n hn => absurd hn List.not_mem_nil, fun _ _ => rfl, fun _ _ hm => hm, rfl, ?_⟩
    simp
  | cons n l ih =>
    obtain ⟨hn, hl⟩ := List.nodup_cons.1 hl
    exact .cons hn (checkPort_checked r n) (ih hl _)

/-- What `CheckTimeOut` does to a switch. -/
structure TimedOut (s s' : Sw) : Prop where
  nid : s'.nid = s.nid
  maxAge : s'.MaxAge = s.MaxAge
  list : s'.PortList = s.PortList
  checked : ∀ n ∈ s.PortList, s'.port n = checked s.MaxAge (s.port n)
  kept : ∀ n, n ∉ s.PortList → s'.port n = s.port n
  tbl : (s'.SpanTreeTbl0 = ⟨s.nid, 0, s.nid, 0⟩ ∧
      ∃ n ∈ s.PortList, s.Dies n ∧ s.SpanTreeTbl0.RootPort = n) ∨
    (s'.SpanTreeTbl0 = s.SpanTreeTbl0 ∧
      ∀ n ∈ s.PortList, s.SpanTreeTbl0.RootPort = n → ¬ s.Dies n)

/-- **Time out.** What `CheckTimeOut` does to every port. -/
theorem checkTimeOut_timedOut (hl : s.PortList.Nodup) :
    TimedOut s s.CheckTimeOut.sw ∧ (∀ n i, (n, Packet.spanINFO i) ∉ s.CheckTimeOut.packets) ∧
      s.CheckTimeOut.opens = [] := by
  unfold CheckTimeOut
  dsimp only
  generalize hage : (if s.STABLEage < s.MaxAge then s.STABLEage + 1 else s.STABLEage) = age
  generalize hr₀ : ((⟨{ s with STABLEage := age, STABLE := s.STABLE || decide (age ≥ s.MaxAge) }, [], []⟩,
    false) : Handled × Bool) = r₀
  have hloop := foldl_checked hl r₀
  subst hr₀
  generalize s.PortList.foldl checkPort _ = r at *
  have hpackets : ∀ n i, (n, Packet.spanINFO i) ∉ r.1.packets := fun n i hm =>
    absurd (hloop.packets n i hm) List.not_mem_nil
  have hdeath : r.2 = true ↔ ∃ n ∈ s.PortList, s.Dies n ∧ s.SpanTreeTbl0.RootPort = n := by
    rw [hloop.death]
    exact or_iff_right Bool.false_ne_true
  by_cases hdead : r.2 = true
  · rw [if_pos hdead]
    exact ⟨⟨hloop.same.nid, hloop.same.maxAge, hloop.same.list, hloop.checked, hloop.kept,
      .inl ⟨rfl, hdeath.1 hdead⟩⟩, hpackets, hloop.opens⟩
  · rw [if_neg hdead]
    exact ⟨⟨hloop.same.nid, hloop.same.maxAge, hloop.same.list, hloop.checked, hloop.kept,
      .inr ⟨hloop.same.tbl, fun n hn hroot hd => hdead (hdeath.2 ⟨n, hn, hd, hroot⟩)⟩⟩, hpackets,
      hloop.opens⟩

end Sw

/-! ### The invariant of a switch -/

section Invariant

variable {V : Type} {net : Net V} {v : V} {c : Call}

open Sw

/-- There is a switch with the id `RootID` that is not farther from `v` than `Cost`. -/
def Backed (net : Net V) (v : V) (RootID Cost : Int) : Prop :=
  ∃ r ls, LinkGraph.Walk net.link v ls r ∧ net.nid r = RootID ∧ (ls.length : Int) ≤ Cost

theorem Backed.own (net : Net V) (v : V) : Backed net v (net.nid v) 0 :=
  ⟨v, [], .nil v, rfl, Int.le_refl 0⟩

/-- A cost that is backed is that of a walk. -/
theorem Backed.cost_nonneg {RootID Cost : Int} (h : Backed net v RootID Cost) : 0 ≤ Cost := by
  obtain ⟨-, ls, -, -, hle⟩ := h
  omega

/-- What is backed at the other end of a link is backed here for one more. -/
theorem Backed.of_peer {w : V} {RootID Cost : Int} (hpeer : net.peer v n = some (w, m))
    (h : Backed net w RootID Cost) : Backed net v RootID (Cost + 1) := by
  obtain ⟨r, ls, hwalk, hid, hle⟩ := h
  refine ⟨r, s((v, n), (w, m)) :: ls, .cons ⟨n, m, hpeer, rfl⟩ hwalk, hid, ?_⟩
  rw [List.length_cons]
  omega

/-- The vector of a port comes from the switch at the other end of its link, and is backed there. -/
def Heard (net : Net V) (v : V) (n : UInt8) (p : SwPort) : Prop :=
  ∃ w m, net.peer v n = some (w, m) ∧ p.Bridge = net.nid w ∧ Backed net w p.RootID p.Cost

/-- The root vector is that of the switch itself or follows the vector of the root port. -/
def Rooted (s : Sw) : Prop :=
  (s.SpanTreeTbl0.RootPort = 0 ∧ s.SpanTreeTbl0.RootID = s.nid ∧ s.SpanTreeTbl0.Cost = 0) ∨
    (s.SpanTreeTbl0.RootPort ∈ s.PortList ∧ ¬ NoData (s.port s.SpanTreeTbl0.RootPort) ∧
      s.SpanTreeTbl0.RootID = (s.port s.SpanTreeTbl0.RootPort).RootID ∧
      s.SpanTreeTbl0.Cost = (s.port s.SpanTreeTbl0.RootPort).Cost + 1)

/-- What holds of a switch in every run. The switch with the least id never takes a root port. -/
structure Sound (net : Net V) (v : V) (s : Sw) : Prop where
  nid : s.nid = net.nid v
  list : s.PortList = net.ports v
  heard : ∀ n, NoData (s.port n) ∨ Heard net v n (s.port n)
  rooted : Rooted s
  least : (∀ u, net.nid v ≤ net.nid u) → s.SpanTreeTbl0.RootPort = 0

/-- What a switch claims about the root is backed. -/
theorem Sound.backed (h : Sound net v s) : Backed net v s.SpanTreeTbl0.RootID s.SpanTreeTbl0.Cost := by
  rcases h.rooted with ⟨-, hid, hcost⟩ | ⟨-, hdata, hid, hcost⟩
  · rw [hid, hcost, h.nid]
    exact .own net v
  · obtain ⟨w, m, hpeer, -, hbacked⟩ := (h.heard _).resolve_left hdata
    rw [hid, hcost]
    exact hbacked.of_peer hpeer

/-- Ports that are only opened or closed. -/
theorem Sound.of_ports (h : Sound net v s) (hs : SameSwitch s s')
    (hp : ∀ n, ∃ b, s'.port n = { s.port n with PortState := b }) : Sound net v s' := by
  have hdata : ∀ n, NoData (s'.port n) ↔ NoData (s.port n) := by
    intro n
    obtain ⟨b, hb⟩ := hp n
    rw [hb]
    rfl
  refine ⟨hs.nid.trans h.nid, hs.list.trans h.list, ?_, ?_, fun hleast => hs.tbl ▸ h.least hleast⟩
  · intro n
    obtain ⟨b, hb⟩ := hp n
    rw [hb]
    exact h.heard n
  · unfold Rooted
    rw [hs.tbl, hs.nid, hs.list, hdata]
    obtain ⟨b, hb⟩ := hp s.SpanTreeTbl0.RootPort
    rw [hb]
    exact h.rooted

/-- A hello packet changes nothing of a port but its state. -/
theorem Sw.Sent.port_state {l : List UInt8} {h h' : Handled} (hsent : Sent info l h h') (n : UInt8) :
    ∃ b, h'.sw.port n = { h.sw.port n with PortState := b } := by
  by_cases hn : n ∈ l ∧ h.sw.Closes n
  · exact ⟨false, hsent.closed n hn.1 hn.2⟩
  · exact ⟨(h.sw.port n).PortState, hsent.kept n fun hl hc => hn ⟨hl, hc⟩⟩

/-- A scheduled port is opened if it still may be. -/
theorem openSpanTreePort_same (s : Sw) (n : UInt8) :
    SameSwitch s (s.OpenSpanTreePort n).sw ∧
      ∀ m, (s.OpenSpanTreePort n).sw.port m =
        if m = n ∧ s.MayOpen n then { s.port n with PortState := true } else s.port m := by
  unfold OpenSpanTreePort
  by_cases hmay : s.MayOpen n
  · rw [if_pos hmay]
    refine ⟨openPort_same s n, fun m => ?_⟩
    dsimp only
    rw [openPort_port]
    simp only [hmay, and_true]
  · rw [if_neg hmay]
    exact ⟨.refl s, fun m => (if_neg fun h => hmay h.2).symm⟩

/-- What a call gets is from the other end of the link. -/
def CallOk (net : Net V) (v : V) : Call → Prop
  | .get n (.spanINFO i) =>
    ∃ w m, net.peer v n = some (w, m) ∧ i.Bridge = net.nid w ∧ Backed net w i.RootID i.Cost
  | _ => True

/-- The other end of the link is always the same switch. -/
theorem Sound.record_eq (hnet : net.WellFormed) (h : Sound net v s)
    (hc : CallOk net v (.get n (.spanINFO info))) :
    record (s.port n) info = ⟨(s.port n).PortState, info.RootID, info.Cost, info.Bridge, 0⟩ := by
  obtain ⟨w, m, hpeer, hbridge, -⟩ := hc
  unfold record
  dsimp only
  rcases h.heard n with hdata | ⟨w', m', hpeer', hbridge', -⟩
  · rw [if_pos hdata.2.2]
  · rw [hpeer] at hpeer'
    cases hpeer'
    have hpos := hnet.nid_pos w
    rw [if_neg (by omega), if_pos (hbridge'.trans hbridge.symm), hbridge, hbridge']

/-- A hello packet is recorded at the port at which it arrives. -/
theorem getSpanTreePacket_port (s : Sw) (n m : UInt8) (info : SpanINFO) :
    (s.GetSpanTreePacket n info).port m = if m = n then record (s.port n) info else s.port m :=
  Function.update_apply ..

/-- A switch without a root port claims to be the root. -/
theorem Sound.own_claim (hnet : net.WellFormed) (h : Sound net v s) (hport : s.SpanTreeTbl0.RootPort = 0) :
    s.SpanTreeTbl0.RootID = net.nid v ∧ s.SpanTreeTbl0.Cost = 0 := by
  rcases h.rooted with ⟨-, hid, hcost⟩ | ⟨hmem, -⟩
  · exact ⟨hid.trans h.nid, hcost⟩
  · rw [hport, h.list] at hmem
    exact absurd hmem (hnet.ports_pos v)

/-- Nothing that is backed is better than the claim of the switch with the least id. -/
theorem Sound.get_least {w : V} (hnet : net.WellFormed) (h : Sound net v s) (hn : n ≠ 0)
    (hrecord : record (s.port n) info = ⟨(s.port n).PortState, info.RootID, info.Cost, info.Bridge, 0⟩)
    (hbacked : Backed net w info.RootID info.Cost) (hleast : ∀ u, net.nid v ≤ net.nid u) :
    (s.GetSpanTreePacket n info).SpanTreeTbl0.RootPort = 0 := by
  have hport := h.least hleast
  obtain ⟨hroot, hcost⟩ := h.own_claim hnet hport
  have hnn := hbacked.cost_nonneg
  obtain ⟨r, -, -, hid, -⟩ := hbacked
  have hle := hleast r
  have hfollow : s.follow n info = s.SpanTreeTbl0 := if_neg fun hf => hn (hf.2.2.trans hport)
  show (improve (s.follow n info) n (record (s.port n) info)).RootPort = 0
  rw [hfollow, hrecord]
  unfold improve
  split
  · rename_i hbetter
    have hbetter := hbetter.2
    unfold Precedes at hbetter
    dsimp only at hbetter
    omega
  · exact hport

/-- A hello packet that is backed keeps the switch sound. -/
theorem Sound.get (hnet : net.WellFormed) (h : Sound net v s)
    (hc : CallOk net v (.get n (.spanINFO info))) : Sound net v (s.GetSpanTreePacket n info) := by
  have hrecord := h.record_eq hnet hc
  have hport := getSpanTreePacket_port s n
  obtain ⟨w, m, hpeer, hbridge, hbacked⟩ := hc
  have hmem := hnet.peer_mem v n _ hpeer
  have hpos := hnet.nid_pos w
  have hn : n ≠ 0 := fun hn => hnet.ports_pos v (hn ▸ hmem)
  have hdata : ¬ NoData (record (s.port n) info) := by
    rw [hrecord]
    rintro ⟨-, -, h0⟩
    have h0 : info.Bridge = 0 := h0
    omega
  refine ⟨h.nid, h.list, ?_, ?_, h.get_least hnet hn hrecord hbacked⟩
  · intro k
    rw [hport]
    split
    · rename_i hk
      rw [hk, hrecord]
      exact .inr ⟨w, m, hpeer, hbridge, hbacked⟩
    · exact h.heard k
  · have htbl : (s.GetSpanTreePacket n info).SpanTreeTbl0 =
        improve (s.follow n info) n (record (s.port n) info) := rfl
    unfold Rooted
    rw [htbl, show (s.GetSpanTreePacket n info).PortList = s.PortList from rfl,
      show (s.GetSpanTreePacket n info).nid = s.nid from rfl, hport]
    unfold improve
    split
    · refine .inr ⟨h.list ▸ hmem, ?_⟩
      dsimp only
      rw [if_pos rfl]
      exact ⟨hdata, rfl, rfl⟩
    · unfold follow
      split
      · rename_i hfollow
        refine .inr ⟨hfollow.2.2 ▸ h.list ▸ hmem, ?_⟩
        dsimp only
        rw [if_pos hfollow.2.2.symm, hrecord]
        rw [hrecord] at hdata
        exact ⟨hdata, rfl, rfl⟩
      · rename_i hfollow
        rcases h.rooted with hroot | hroot
        · exact .inl hroot
        · have hne : s.SpanTreeTbl0.RootPort ≠ n := by
            intro he
            -- the root port has heard the other end
            obtain ⟨w', m', hpeer', hbridge', -⟩ := (h.heard n).resolve_left (he ▸ hroot.2.1)
            rw [hpeer] at hpeer'
            cases hpeer'
            exact hfollow ⟨by omega, hbridge'.trans hbridge.symm, he.symm⟩
          rw [if_neg hne]
          exact .inr hroot

/-- Records that are forgotten keep the switch sound. -/
theorem Sound.checkTimeOut (hl : s.PortList.Nodup) (h : Sound net v s) :
    Sound net v s.CheckTimeOut.sw := by
  obtain ⟨hout, -, -⟩ := checkTimeOut_timedOut hl
  have hheard : ∀ n, NoData (checked s.MaxAge (s.port n)) ∨ Heard net v n (checked s.MaxAge (s.port n)) := by
    intro n
    unfold checked
    split
    · split
      · exact .inl ⟨rfl, rfl, rfl⟩
      · exact h.heard n
    · exact h.heard n
  refine ⟨hout.nid.trans h.nid, hout.list.trans h.list, ?_, ?_, ?_⟩
  · intro n
    by_cases hn : n ∈ s.PortList
    · rw [hout.checked n hn]
      exact hheard n
    · rw [hout.kept n hn]
      exact h.heard n
  · unfold Rooted
    rcases hout.tbl with ⟨htbl, -⟩ | ⟨htbl, halive⟩
    · rw [htbl]
      exact .inl ⟨rfl, hout.nid.symm, rfl⟩
    · rw [htbl, hout.nid, hout.list]
      rcases h.rooted with hroot | ⟨hmem, hdata, hroot⟩
      · exact .inl hroot
      · have hkeep : ∃ a, s.CheckTimeOut.sw.port s.SpanTreeTbl0.RootPort =
            { s.port s.SpanTreeTbl0.RootPort with Age := a } := by
          rw [hout.checked _ hmem]
          unfold checked
          split
          · rename_i hage
            split
            · rename_i hdies
              exact absurd ⟨hage, hdies⟩ (halive _ hmem rfl)
            · exact ⟨_, rfl⟩
          · exact ⟨_, rfl⟩
        obtain ⟨a, ha⟩ := hkeep
        rw [ha]
        exact .inr ⟨hmem, hdata, hroot⟩
  · intro hleast
    rcases hout.tbl with ⟨htbl, -⟩ | ⟨htbl, -⟩
    · rw [htbl]
    · rw [htbl]
      exact h.least hleast

theorem Sound.nodup (hnet : net.WellFormed) (h : Sound net v s) : s.PortList.Nodup :=
  h.list ▸ hnet.ports_nodup v

/-- Every handler keeps the invariant, and only hello packets of the switch leave it. -/
theorem Sound.call (hnet : net.WellFormed) (h : Sound net v s) (hc : CallOk net v c) :
    Sound net v (s.call c).sw ∧
      ∀ n i, (n, Packet.spanINFO i) ∈ (s.call c).packets →
        i.Bridge = net.nid v ∧ Backed net v i.RootID i.Cost := by
  cases c with
  | SendSpanTreePacket =>
    obtain ⟨info, hclaims, hsent⟩ := send_sent (h.nodup hnet)
    refine ⟨h.of_ports hsent.same fun n => hsent.port_state n, fun n i hm => ?_⟩
    rcases (hsent.packets n i).1 hm with hm | ⟨-, -, rfl⟩
    · exact absurd hm List.not_mem_nil
    · exact ⟨hclaims.2.2.trans h.nid, hclaims.1 ▸ hclaims.2.1 ▸ h.backed⟩
  | get n pkt =>
    cases pkt with
    | spanINFO i => exact ⟨h.get hnet hc, fun n i hm => absurd hm List.not_mem_nil⟩
    | topChangeINFO =>
      refine ⟨?_, fun n i hm => absurd hm List.not_mem_nil⟩
      show Sound net v s.GetSpanTreeChange
      unfold GetSpanTreeChange
      split <;> exact ⟨h.nid, h.list, h.heard, h.rooted, h.least⟩
  | OpenSpanTreePort n =>
    obtain ⟨hsame, hport⟩ := openSpanTreePort_same s n
    refine ⟨h.of_ports hsame fun m => ?_, ?_⟩
    · show ∃ b, (s.OpenSpanTreePort n).sw.port m = _
      rw [hport]
      split
      · rename_i hm
        exact ⟨true, by rw [hm.1]⟩
      · exact ⟨_, rfl⟩
    · intro m i hm
      have hm : (m, Packet.spanINFO i) ∈ (s.OpenSpanTreePort n).packets := hm
      unfold OpenSpanTreePort at hm
      split at hm
      · exact absurd hm (openPort_packets s n m i)
      · exact absurd hm List.not_mem_nil
  | CheckTimeOut =>
    obtain ⟨-, hnone, -⟩ := checkTimeOut_timedOut (h.nodup hnet)
    exact ⟨h.checkTimeOut (h.nodup hnet), fun n i hm => absurd hm (hnone n i)⟩

/-! ### The invariant of a network -/

/-- The switches are sound, and so are the packets on the links. -/
structure Consistent (net : Net V) (x : State V) : Prop where
  sound : ∀ v, Sound net v (x.sw v)
  flight : ∀ d pkt, (d, pkt) ∈ x.flight → CallOk net d.1 (.get d.2 pkt)

/-- Nothing has been heard. -/
theorem init_consistent : Consistent net net.init where
  sound _ := ⟨rfl, rfl, fun _ => .inl ⟨rfl, rfl, rfl⟩, .inl ⟨rfl, rfl, rfl⟩, fun _ => rfl⟩
  flight _ _ hm := absurd hm List.not_mem_nil

variable [DecidableEq V]

/-- A call keeps the network consistent. -/
theorem Consistent.call {x : State V} (hnet : net.WellFormed) (h : Consistent net x)
    (hc : CallOk net v c) : Consistent net (net.call x v c) := by
  obtain ⟨hsound, hpackets⟩ := (h.sound v).call hnet hc
  constructor
  · intro w
    show Sound net w (Function.update x.sw v _ w)
    by_cases hw : w = v
    · subst hw
      rw [Function.update_self]
      exact hsound
    · rw [Function.update_of_ne hw]
      exact h.sound w
  · intro d pkt hm
    rcases List.mem_append.1 hm with hm | hm
    · exact h.flight d pkt hm
    · obtain ⟨⟨n, pkt'⟩, hmem, hput⟩ := List.mem_filterMap.1 hm
      obtain ⟨⟨w, m⟩, hpeer, hd⟩ := Option.map_eq_some_iff.1 hput
      cases hd
      cases pkt' with
      | topChangeINFO => trivial
      | spanINFO i =>
        obtain ⟨hbridge, hbacked⟩ := hpackets n i hmem
        exact ⟨v, n, hnet.peer_symm v n w m hpeer, hbridge, hbacked⟩

/-- **The invariant.** A step keeps the network consistent. -/
theorem Consistent.step {x x' : State V} (hnet : net.WellFormed) (h : Consistent net x) (a : Action V)
    (hstep : net.step x a = .ok x') : Consistent net x' := by
  have herase : ∀ i, Consistent net { x with flight := x.flight.eraseIdx i } := fun i =>
    ⟨h.sound, fun d pkt hm => h.flight d pkt (List.mem_of_mem_eraseIdx hm)⟩
  cases a with
  | hello v =>
    cases hstep
    exact h.call hnet trivial
  | deliver i =>
    dsimp only [Net.step] at hstep
    cases hi : x.flight[i]? with
    | none =>
      rw [hi] at hstep
      cases hstep
      exact h
    | some d =>
      obtain ⟨⟨v, n⟩, pkt⟩ := d
      rw [hi] at hstep
      cases hstep
      exact (herase i).call hnet (h.flight _ _ (List.mem_of_getElem? hi))
  | lose i =>
    cases hstep
    exact herase i
  | openPort i =>
    dsimp only [Net.step] at hstep
    cases hi : x.scheduled[i]? with
    | none =>
      rw [hi] at hstep
      cases hstep
      exact h
    | some d =>
      obtain ⟨v, n⟩ := d
      rw [hi] at hstep
      cases hstep
      exact Consistent.call hnet ⟨h.sound, h.flight⟩ trivial
  | checkTimeOut v =>
    cases hstep
    exact h.call hnet trivial

end Invariant

end SpanTree
