import Nctuns.Switch.Forwarding
import Nctuns.Switch.Proofs.SwitchTableProofs

/-!
# Proofs about what becomes of a frame

All but two ends of `send` make copies and free the frame: these are described at once, by the ports of
the copies.
-/

namespace Switch

open Outcome

variable {π μ : Type} [DecidableEq π] [DecidableEq μ] {s : Tables π} {l : Target → List Nat}
  {cfg : Config π μ} {PortState : SwPort π μ → UInt8} {f : Frame μ} {acts : List (Act π)}

/-! ### Learning -/

/-- `addSwTbl` looks for the port of the frame, and only a frame of another module has none. -/
theorem addSwTbl_ends (h : Shape s l) (cfg : Config π μ) (now : UInt64) (mac_ : Mac) (frm : μ)
    (t : Target) :
    Ends (fun _ => cfg.frmport frm = none) (fun s' => ∃ l', Shape s' l')
      (s.addSwTbl cfg now mac_ (cfg.frmport frm) t) := by
  unfold Tables.addSwTbl
  split
  · exact .ok ⟨l, h⟩
  · obtain ⟨s₁, l₁, found, heq, hp₁, -, hfound⟩ :=
      findSwTbl_spec h cfg now mac_ (cfg.frmport frm) t
    rw [heq, bind_ok]
    cases found with
    | true => exact .ok ⟨l₁, hp₁.shape⟩
    | false =>
      obtain ⟨s₂, l₂, found, heq, hp₂, -, -⟩ :=
        findSwTbl_spec hp₁.shape cfg now mac_ (cfg.frmport frm) .pmntSwTable
      simp only [Bool.false_eq_true, if_false, heq, bind_ok]
      cases found with
      | true => exact .ok ⟨l₂, hp₂.shape⟩
      | false =>
        have hnone : ∀ k ∈ l₂ t, (s₂.record k).mac ≠ mac_ := fun k hk =>
          hp₂.mac k ▸ hfound k ((hp₂.sublist t).subset hk)
        simp only [Bool.false_eq_true, if_false]
        split
        · rename_i hport
          refine .error (Option.eq_none_iff_forall_ne_some.2 fun port_ hfrm => ?_)
          obtain ⟨p, hp, rfl⟩ := Option.map_eq_some_iff.1 hfrm
          have hnot := List.find?_eq_none.1 hport p (List.mem_of_find?_eq_some hp)
          exact hnot (decide_eq_true hfrm.symm)
        · exact .ok ⟨_, (append_spec hp₂.shape hnone).1⟩

/-- Learning keeps the tables lists, in every mode. -/
theorem learn_ends (h : Shape s l) (cfg : Config π μ) (now : UInt64) (f : Frame μ) :
    Ends (fun _ => cfg.frmport f.frm = none) (fun s' => ∃ l', Shape s' l') (s.learn cfg now f) := by
  unfold Tables.learn
  by_cases hdst : f.dstMac = ETHER_MULTICAST1
  · rw [if_pos hdst]
    split
    · exact addSwTbl_ends h cfg now f.srcMac f.frm .pmntSwTable
    · split
      · rcases search_spec h f.srcMac .pmntSwTable with
          ⟨hsearch, -⟩ | ⟨pre, mt, post, hl, -, -, hsearch⟩
        · rw [hsearch]
          exact .ok ⟨l, h⟩
        · obtain ⟨s', heq, hp, -, -⟩ := delSwTbl_spec h hl
          simp only [hsearch, bind_ok, heq]
          exact .ok ⟨_, hp.shape⟩
      · exact .ok ⟨l, h⟩
  · rw [if_neg hdst]
    split
    · exact addSwTbl_ends h cfg now f.srcMac f.frm .swTable
    · exact .ok ⟨l, h⟩

/-! ### Forwarding -/

omit [DecidableEq π] in
/-- Copies on different open ports other than that of arrival, and the frame freed. -/
theorem Forwards.of_copies (ports : List π) (hdst : f.dstMac ≠ ETHER_MULTICAST1)
    (hnd : ports.Nodup)
    (hports : ∀ p ∈ ports, cfg.frmport f.frm ≠ some p ∧
      ∃ q ∈ cfg.PortList, q.port = p ∧ cfg.isOpen PortState q = true)
    (hflooded : ¬ KeepsIn cfg f → (∀ t, s.findport f.dstMac t = .ok none) → ∀ q ∈ cfg.PortList,
      cfg.frmport f.frm ≠ some q.port → cfg.isOpen PortState q = true → q.port ∈ ports) :
    Forwards s cfg PortState f (ports.map .putCopy ++ [.freePacket]) := by
  have hmem : ∀ p, Act.putCopy p ∈ ports.map Act.putCopy ++ [.freePacket] ↔ p ∈ ports := by simp
  have hout : (ports.map Act.putCopy ++ [Act.freePacket]).filterMap Act.port? = ports := by
    simp [Act.port?, List.filterMap_append, List.filterMap_map, Function.comp_def]
  refine ⟨fun _ => ?_, ?_, fun h => absurd h hdst, hout.symm ▸ hnd, fun p hp => ?_, fun p hp => ?_,
    fun p hp => ?_, fun _ hk hu q hq hne ho => ?_⟩
  · simp [List.countP_append, List.countP_map, Function.comp_def, Act.consumes]
  · intro front a back he ha
    by_contra hback
    obtain ⟨back, x, rfl⟩ := (List.eq_nil_or_concat back).resolve_left hback
    rw [List.concat_eq_append, ← List.cons_append, ← List.append_assoc] at he
    have hcopies := (List.append_inj' he rfl).1
    have hin : a ∈ ports.map Act.putCopy := by simp [hcopies]
    obtain ⟨p, -, rfl⟩ := List.mem_map.1 hin
    cases ha
  · exact (hports p ((hmem p).1 hp)).1
  · exact (hports p ((hmem p).1 hp)).2
  · simp at hp
  · exact (hmem q.port).2 (hflooded hk hu q hq hne ho)

omit [DecidableEq π] in
/-- Nothing is copied, and the frame freed. -/
theorem Forwards.of_freed (hdst : f.dstMac ≠ ETHER_MULTICAST1)
    (hknown : KeepsIn cfg f ∨ ∃ t p, s.findport f.dstMac t = .ok (some p)) :
    Forwards s cfg PortState f [.freePacket] := by
  refine Forwards.of_copies [] hdst List.nodup_nil (by simp) fun hk hu => ?_
  rcases hknown with hkeeps | ⟨t, p, hp⟩
  · exact absurd hkeeps hk
  · rw [hu t] at hp
    cases hp

theorem forwardPkt_spec (h : Shape s l) (hports : (cfg.PortList.map (·.port)).Nodup)
    (PortState : SwPort π μ → UInt8) (f : Frame μ) :
    ∃ acts, s.forwardPkt cfg PortState f = .ok acts ∧ Forwards s cfg PortState f acts := by
  obtain ⟨pmnt, hpmnt, -⟩ := findport_spec h f.dstMac .pmntSwTable
  obtain ⟨learnt, hlearnt, -⟩ := findport_spec h f.dstMac .swTable
  unfold Tables.forwardPkt
  by_cases hdst : f.dstMac = ETHER_MULTICAST1
  · rw [if_pos hdst]
    exact ⟨[], rfl, by constructor <;> simp [hdst]⟩
  rw [if_neg hdst]
  simp only [hpmnt, bind_ok]
  cases pmnt with
  | some port_ =>
    refine ⟨[.put port_], rfl, ?_⟩
    have hnotunknown : ¬ ∀ t, s.findport f.dstMac t = .ok none := by
      intro hu
      rw [hu .pmntSwTable] at hpmnt
      cases hpmnt
    refine ⟨fun _ => rfl, ?_, fun hm => absurd hm hdst, by simp [Act.port?], by simp, by simp, ?_,
      fun _ _ hu => absurd hu hnotunknown⟩
    · intro front a back he _
      rcases front with - | ⟨b, front⟩
      · exact (List.cons.inj he).2.symm
      · simp at he
    · intro p hp
      obtain rfl : p = port_ := by simpa using hp
      exact hpmnt
  | none =>
    simp only [hlearnt, bind_ok]
    cases learnt with
    | some port_ =>
      have hfreed : Forwards s cfg PortState f [.freePacket] :=
        Forwards.of_freed hdst (.inr ⟨.swTable, port_, hlearnt⟩)
      by_cases hfrm : some port_ ≠ cfg.frmport f.frm
      · simp only [if_pos hfrm]
        cases hfind : cfg.PortList.find? fun p => decide (p.port = port_) with
        | none => exact ⟨_, rfl, hfreed⟩
        | some q =>
          have hq : q ∈ cfg.PortList := List.mem_of_find?_eq_some hfind
          have hqport : q.port = port_ := by simpa using List.find?_some hfind
          by_cases hopen : cfg.isOpen PortState q = true
          · simp only [if_pos hopen]
            refine ⟨_, rfl, Forwards.of_copies [port_] hdst (List.nodup_singleton _) ?_ ?_⟩
            · intro p hp
              obtain rfl := List.mem_singleton.1 hp
              exact ⟨hfrm.symm, q, hq, hqport, hopen⟩
            · intro _ hu
              rw [hu .swTable] at hlearnt
              cases hlearnt
          · simp only [if_neg hopen]
            exact ⟨_, rfl, hfreed⟩
      · simp only [if_neg hfrm]
        exact ⟨_, rfl, hfreed⟩
    | none =>
      by_cases hkeeps : cfg.SWITCH_MODE = .KnowInAdvance ∧ f.dstMac ≠ ETHER_BROADCAST
      · simp only [if_pos hkeeps]
        exact ⟨_, rfl, Forwards.of_freed hdst (.inl hkeeps)⟩
      · simp only [if_neg hkeeps]
        refine ⟨_, rfl, ?_⟩
        rw [← Function.comp_def Act.putCopy, ← List.map_map]
        refine Forwards.of_copies _ hdst (hports.sublist (List.filter_sublist.map _)) ?_ ?_
        · intro p hp
          obtain ⟨q, hq, rfl⟩ := List.mem_map.1 hp
          simp only [List.mem_filter, Bool.and_eq_true, decide_eq_true_eq] at hq
          exact ⟨hq.2.1, q, hq.1, rfl, hq.2.2⟩
        · intro _ _ q hq hne hopen
          refine List.mem_map.2 ⟨q, List.mem_filter.2 ⟨hq, ?_⟩, rfl⟩
          simp [hne, hopen]

theorem sendPkt_spec (h : Shape s l) (hports : (cfg.PortList.map (·.port)).Nodup) (now : UInt64)
    (PortState : SwPort π μ → UInt8) (f : Frame μ) :
    Ends (fun _ => cfg.frmport f.frm = none) (fun r => Forwards r.1 cfg PortState f r.2)
      (s.sendPkt cfg now PortState f) := by
  unfold Tables.sendPkt
  refine (learn_ends h cfg now f).bind fun s' hs' => ?_
  obtain ⟨l', hl'⟩ := hs'
  obtain ⟨acts, heq, hacts⟩ := forwardPkt_spec hl' hports PortState f
  rw [heq]
  exact hacts

theorem getPkt_spec (h : Shape s l) (hports : (cfg.PortList.map (·.port)).Nodup) (now : UInt64)
    (tree : Tree π μ) (f : Frame μ) :
    Ends (fun _ => cfg.frmport f.frm = none)
      (fun r => (Discards cfg tree f → r.2 = [.freePacket]) ∧
        (¬ Discards cfg tree f → Forwards r.1 cfg tree.PortState f r.2))
      (s.getPkt cfg now tree f) := by
  unfold Tables.getPkt
  by_cases hdst : f.dstMac = SPAN_MULTICAST
  · have hdis : Discards cfg tree f := .inl hdst
    rw [if_pos hdst]
    refine Ends.guard (fun hnone => ?_) fun _ => ?_
    · simpa [Config.frmport] using hnone.1
    · split
      · obtain ⟨s', l', heq, -⟩ := flushSwTbl_spec h now
        rw [heq]
        exact .ok ⟨fun _ => rfl, fun hn => absurd hdis hn⟩
      · exact .ok ⟨fun _ => rfl, fun hn => absurd hdis hn⟩
  rw [if_neg hdst]
  by_cases hoff : cfg.SpanningTreeProtocol = false
  · rw [if_pos hoff]
    have hdis : ¬ Discards cfg tree f := by simp [Discards, hdst, hoff]
    exact (sendPkt_spec h hports now tree.PortState f).mono (fun _ he => he) fun r hr =>
      ⟨fun hd => absurd hd hdis, fun _ => hr⟩
  have hon : cfg.SpanningTreeProtocol = true := by simpa using hoff
  rw [if_neg hoff]
  split
  · rename_i hnone
    exact .error (by simp [Config.frmport, hnone])
  · rename_i p hp
    by_cases hclosed : tree.PortState p = 0
    · rw [if_pos hclosed]
      have hdis : Discards cfg tree f := .inr ⟨hon, .inr ⟨p, hp, hclosed⟩⟩
      exact .ok ⟨fun _ => rfl, fun hn => absurd hdis hn⟩
    rw [if_neg hclosed]
    by_cases hstable : tree.STABLE = false
    · rw [if_pos hstable]
      have hdis : Discards cfg tree f := .inr ⟨hon, .inl hstable⟩
      exact .ok ⟨fun _ => rfl, fun hn => absurd hdis hn⟩
    · rw [if_neg hstable]
      have hdis : ¬ Discards cfg tree f := by
        rintro (hspan | ⟨-, hst | ⟨q, hq, hqs⟩⟩)
        · exact hdst hspan
        · exact hstable hst
        · rw [hp] at hq
          exact hclosed (Option.some.inj hq ▸ hqs)
      exact (sendPkt_spec h hports now tree.PortState f).mono (fun _ he => he) fun r hr =>
        ⟨fun hd => absurd hd hdis, fun _ => hr⟩

/-- **Conservation of frames.** A frame from one of the ports is not lost and not doubled: `send`
    forwards it, and `get` frees it where the spanning tree protocol says so and else forwards it. -/
theorem frames_conserved (h : Shape s l) (hports : (cfg.PortList.map (·.port)).Nodup) (now : UInt64)
    (tree : Tree π μ) (f : Frame μ) :
    Ends (fun _ => cfg.frmport f.frm = none) (fun r => Forwards r.1 cfg tree.PortState f r.2)
        (s.sendPkt cfg now tree.PortState f) ∧
      Ends (fun _ => cfg.frmport f.frm = none)
        (fun r => (Discards cfg tree f → r.2 = [.freePacket]) ∧
          (¬ Discards cfg tree f → Forwards r.1 cfg tree.PortState f r.2))
        (s.getPkt cfg now tree f) :=
  ⟨sendPkt_spec h hports now tree.PortState f, getPkt_spec h hports now tree f⟩

/-- A frame of an unknown station to another one, from the first of two ports. -/
def strangers : Frame Bool := ⟨7#48, 9#48, false, false, false⟩

/-- All ports are open. -/
def openTree : Tree Bool Bool := ⟨fun _ => 1, true, false, false⟩

/-- A frame between addresses that the switch does not know. -/
theorem frames_conserved_strangers :
    Ends (fun _ => twoPorts.frmport false = none)
        (fun r => Forwards r.1 twoPorts (fun _ => 1) strangers r.2)
        (blank.tables.sendPkt twoPorts 0 (fun _ => 1) strangers) ∧
      Ends (fun _ => twoPorts.frmport false = none)
        (fun r => (Discards twoPorts openTree strangers → r.2 = [.freePacket]) ∧
          (¬ Discards twoPorts openTree strangers → Forwards r.1 twoPorts (fun _ => 1) strangers r.2))
        (blank.tables.getPkt twoPorts 0 openTree strangers) :=
  frames_conserved (Shape.new _) (by decide) 0 openTree strangers

/-- The same switch, which knows its stations in advance. -/
def knowing : Config Bool Bool := { twoPorts with SWITCH_MODE := .KnowInAdvance }

/-- It frees a frame for a station that it does not know. -/
theorem unknown_freed :
    blank.tables.sendPkt knowing 0 (fun _ => 1) strangers = .ok (blank.tables, [.freePacket]) ∧
      ¬ Conserves blank.tables knowing (fun _ => 1) strangers [.freePacket] := by
  refine ⟨rfl, fun h => ?_⟩
  have hunknown : ∀ t, blank.tables.findport strangers.dstMac t = .ok none := fun t => rfl
  have hput := h.flooded hunknown ⟨2, true, true⟩ (by decide) (by decide) rfl
  simp at hput

end Switch
