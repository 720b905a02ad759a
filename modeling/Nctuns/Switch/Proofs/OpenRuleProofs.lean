import Nctuns.Switch.OpenRule
import Nctuns.Switch.Proofs.SpanningTreeProofs

/-!
# Proofs about the opening of ports

Sending and opening do not change what either of them compares, so each part of the agreement is an
implication between the two rules.
-/

namespace SpanTree.Sw

variable {s s' : Sw} {n : UInt8}

theorem mayOpen_congr (hnid : s'.nid = s.nid) (htbl : s'.SpanTreeTbl0 = s.SpanTreeTbl0)
    (hport : s'.port n = s.port n) : s'.MayOpen n ↔ s.MayOpen n := by
  unfold MayOpen
  rw [hnid, htbl, hport]

/-- A closed port is opened exactly if the rule says so. -/
theorem opened_iff (hclosed : (s.port n).PortState = false) :
    ((s.OpenSpanTreePort n).sw.port n).PortState = true ↔ s.MayOpen n := by
  rw [(openSpanTreePort_same s n).2 n]
  by_cases hmay : s.MayOpen n
  · rw [if_pos ⟨rfl, hmay⟩]
    exact iff_of_true rfl hmay
  · rw [if_neg fun h => hmay h.2, hclosed]
    exact iff_of_false (by decide) hmay

/-- Opening a port does not change what sending compares. -/
theorem closes_opened : (s.OpenSpanTreePort n).sw.Closes n ↔ s.Closes n := by
  obtain ⟨hsame, hport⟩ := openSpanTreePort_same s n
  have hp : ∃ b, (s.OpenSpanTreePort n).sw.port n = { s.port n with PortState := b } := by
    rw [hport n]
    split
    · exact ⟨true, rfl⟩
    · exact ⟨(s.port n).PortState, rfl⟩
  obtain ⟨b, hb⟩ := hp
  unfold Closes NoData Designated
  rw [hsame.nid, hsame.tbl, hb]

/-- What is open after sending was open and is not closed. -/
theorem open_after_send_iff (hl : s.PortList.Nodup) (hn : n ∈ s.PortList)
    (hopen : (s.port n).PortState = true) :
    (s.SendSpanTreePacket.sw.port n).PortState = true ↔ ¬ s.Closes n := by
  obtain ⟨info, -, hsent⟩ := send_sent hl
  by_cases hc : s.Closes n
  · rw [hsent.closed n hn hc]
    exact iff_of_false Bool.false_ne_true (not_not.2 hc)
  · rw [hsent.kept n fun _ => hc]
    exact iff_of_true hopen hc

/-- Between different roots both rules look at the roots alone. -/
theorem designated_iff_of_ne (hne : s.SpanTreeTbl0.RootID ≠ (s.port n).RootID) :
    s.Designated (s.port n) ↔
      Precedes s.SpanTreeTbl0.RootID s.SpanTreeTbl0.Cost s.SpanTreeTbl0.Bridge
        (s.port n).RootID (s.port n).RootID (s.port n).Bridge := by
  unfold Designated Precedes
  tauto

/-- The agreement as one of the two rules. -/
theorem rulesAgree_iff : s.RulesAgree n ↔
    s.SpanTreeTbl0.RootPort = n ∨ s.SpanTreeTbl0.RootID = s.nid ∨ NoData (s.port n) ∨
      (s.Designated (s.port n) ↔
        Precedes s.SpanTreeTbl0.RootID s.SpanTreeTbl0.Cost s.SpanTreeTbl0.Bridge
          (s.port n).RootID (s.port n).RootID (s.port n).Bridge) := by
  by_cases hne : s.SpanTreeTbl0.RootID = (s.port n).RootID
  · have hirr : ¬ s.SpanTreeTbl0.RootID < (s.port n).RootID := by omega
    unfold RulesAgree Designated Precedes
    simp only [hne, ne_eq, not_true_eq_false, false_or, true_and]
    simp only [← hne, lt_irrefl, false_or]
  · unfold RulesAgree
    simp only [designated_iff_of_ne hne, ne_eq, hne, not_false_eq_true, true_or, or_true]

/-- One rule as a condition on the other, when both hold at a root port, at the root and without data. -/
theorem agree_iff {root own nothing sends opens : Prop} :
    (((own ∨ nothing ∨ ¬ root ∧ sends) ∨ root → root ∨ own ∨ nothing ∨ opens) ∧
      (¬ root → root ∨ own ∨ nothing ∨ opens → ¬ ¬ ((own ∨ nothing ∨ ¬ root ∧ sends) ∨ root))) ↔
        root ∨ own ∨ nothing ∨ (sends ↔ opens) := by
  by_cases root
  · simp [*]
  · by_cases own
    · simp [*]
    · by_cases nothing
      · simp [*]
      · by_cases sends <;> simp [*]

/-- **Opening and sending.** For a closed port the two handlers agree exactly if their comparisons do. -/
theorem opensAsSent_iff (s : Sw) (n : UInt8) (hl : s.PortList.Nodup) (hn : n ∈ s.PortList)
    (hclosed : (s.port n).PortState = false) : s.OpensAsSent n ↔ s.RulesAgree n := by
  obtain ⟨info, -, hsent⟩ := send_sent hl
  have hopens : n ∈ s.SendSpanTreePacket.opens ↔ s.Sends n ∨ s.SpanTreeTbl0.RootPort = n := by
    rw [hsent.opens]
    constructor
    · rintro (h | ⟨-, hask⟩)
      · exact absurd h List.not_mem_nil
      · exact hask.2
    · intro h
      exact .inr ⟨hn, hclosed, h⟩
  obtain ⟨hsame, -⟩ := openSpanTreePort_same s n
  have hl' : (s.OpenSpanTreePort n).sw.PortList.Nodup := hsame.list ▸ hl
  have hn' : n ∈ (s.OpenSpanTreePort n).sw.PortList := hsame.list ▸ hn
  have hscheduled : (∀ s' : Sw, s'.nid = s.nid → s'.SpanTreeTbl0 = s.SpanTreeTbl0 → s'.port n = s.port n →
      ((s'.OpenSpanTreePort n).sw.port n).PortState = true) ↔ s.MayOpen n := by
    constructor
    · intro h
      exact (opened_iff hclosed).1 (h s rfl rfl rfl)
    · intro hmay s' hnid htbl hport
      exact (opened_iff (hport ▸ hclosed)).2 ((mayOpen_congr hnid htbl hport).2 hmay)
  have hagree : s.OpensAsSent n ↔ (s.Sends n ∨ s.SpanTreeTbl0.RootPort = n → s.MayOpen n) ∧
      (s.SpanTreeTbl0.RootPort ≠ n → s.MayOpen n → ¬ s.Closes n) := by
    constructor
    · intro h
      refine ⟨fun hs => hscheduled.1 (h.scheduled (hopens.2 hs)), fun hroot hmay => ?_⟩
      have hopen := (opened_iff hclosed).2 hmay
      rw [← closes_opened, ← open_after_send_iff hl' hn' hopen]
      exact h.not_closed hroot hopen
    · intro h
      refine ⟨fun hs => hscheduled.2 (h.1 (hopens.1 hs)), fun hroot hopen => ?_⟩
      rw [open_after_send_iff hl' hn' hopen, closes_opened]
      exact h.2 hroot ((opened_iff hclosed).1 hopen)
  rw [hagree, rulesAgree_iff, closes_iff]
  exact agree_iff

/-- Switch 7 behind root 1 hears a worse vector on its second port. -/
def behindRoot : Sw :=
  { init 7 3 [1, 2] with
    SpanTreeTbl0 := ⟨1, 3, 5, 1⟩
    port := fun n => if n = 1 then ⟨true, 1, 2, 5, 0⟩ else ⟨false, 1, 4, 9, 0⟩ }

/-- A port behind the root port. -/
theorem opensAsSent_iff_rootPort :
    { behindRoot with port := fun _ => ⟨false, 1, 2, 5, 0⟩ }.OpensAsSent 1 :=
  (opensAsSent_iff { behindRoot with port := fun _ => ⟨false, 1, 2, 5, 0⟩ } 1 (by decide) (by decide)
    rfl).2 (by decide)

/-- The port is scheduled, nothing changes, and it is not opened. -/
theorem scheduled_not_opened : ¬ ∀ (s : Sw) (n : UInt8), s.PortList.Nodup → n ∈ s.PortList →
    (s.port n).PortState = false → s.OpensAsSent n := by
  intro h
  have hsent := h behindRoot 2 (by decide) (by decide) rfl
  exact absurd (hsent.scheduled (by decide) behindRoot rfl rfl rfl) (by decide)

end SpanTree.Sw
