import Nctuns.Switch.SpanningTree

/-!
# When a port is opened

`SendSpanTreePacket` schedules the opening of a port and `OpenSpanTreePort` decides about it later; both
compare the vector of the switch with that of the port.
-/

namespace SpanTree.Sw

/-- What opening owes to sending, for a port that is closed. -/
structure OpensAsSent (s : Sw) (n : UInt8) : Prop where
  /-- A port that was scheduled is opened in a state with the same vectors. -/
  scheduled : n ∈ s.SendSpanTreePacket.opens → ∀ s' : Sw, s'.nid = s.nid →
    s'.SpanTreeTbl0 = s.SpanTreeTbl0 → s'.port n = s.port n →
      ((s'.OpenSpanTreePort n).sw.port n).PortState = true
  /-- A port that is opened, and is not the root port, is not closed again. -/
  not_closed : s.SpanTreeTbl0.RootPort ≠ n → ((s.OpenSpanTreePort n).sw.port n).PortState = true →
    ((s.OpenSpanTreePort n).sw.SendSpanTreePacket.sw.port n).PortState = true

/-- The two comparisons come to the same: cost and bridge of the port with those of the switch as it
    sends them, and the root of the port, for its cost, with the cost and bridge of the root vector. -/
def RulesAgree (s : Sw) (n : UInt8) : Prop :=
  s.SpanTreeTbl0.RootPort = n ∨ s.SpanTreeTbl0.RootID = s.nid ∨ NoData (s.port n) ∨
    s.SpanTreeTbl0.RootID ≠ (s.port n).RootID ∨
    ((s.SpanTreeTbl0.Cost < (s.port n).Cost ∨
        s.SpanTreeTbl0.Cost = (s.port n).Cost ∧ s.nid < (s.port n).Bridge) ↔
      (s.SpanTreeTbl0.Cost < (s.port n).RootID ∨
        s.SpanTreeTbl0.Cost = (s.port n).RootID ∧ s.SpanTreeTbl0.Bridge < (s.port n).Bridge))

instance (s : Sw) (n : UInt8) : Decidable (s.RulesAgree n) :=
  inferInstanceAs (Decidable (_ ∨ _ ∨ _ ∨ _ ∨ _))

end SpanTree.Sw
