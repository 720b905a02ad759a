import Nctuns.Lib.SwapErase

/-!
# The routing table of ADV

`RtTable` of `advd.cc`: an array whose first entry is the node's own. An entry is valid while the host
that signed its sequence number is the destination itself, and is erased by the last one.
-/

namespace Adv

/-- An address, a `u_long`. -/
abbrev Addr := ℕ

/-- The metric of a broken route. -/
def METRIC_INFINITE : Int := 999

/-- A route. -/
structure rt_entry where
  Dst_IP : Addr
  Nexthop_IP : Addr
  Metric : Int
  seqNum : Int
  seqSignHost : Addr
  Recv_flag : Bool
  Pkts_handled : ℕ
  JustUpdated : Bool
  deriving DecidableEq, Repr

/-- The path is not broken. -/
def rt_entry.Valid (r : rt_entry) : Prop := r.Dst_IP = r.seqSignHost

instance : DecidablePred rt_entry.Valid := fun r => inferInstanceAs (Decidable (r.Dst_IP = r.seqSignHost))

/-- The entry has changed and is in use. -/
def rt_entry.ifJustUpdated (r : rt_entry) : Bool := r.JustUpdated && r.Dst_IP ≠ 0

/-- The destination is a receiver and the entry is in use. -/
def rt_entry.ifRecvflagOn (r : rt_entry) : Bool := r.Recv_flag && r.Dst_IP ≠ 0

/-- What an update has done to an entry. -/
inductive UpdateResult where
  | UPDATE_FAIL
  | UPDATE_SUCCESS
  | UPDATE_TOINF
  deriving DecidableEq, Repr

/-- The entries up to `len`. -/
structure RtTable where
  rows : List rt_entry
  deriving DecidableEq, Repr

namespace RtTable

variable (t : RtTable)

/-- The place of a destination in the table. -/
def ifExist (in_Dst_IP : Addr) : Option ℕ := t.rows.findIdx? fun r => r.Dst_IP = in_Dst_IP

/-- There is a valid entry for the destination. -/
def hasValid (dst : Addr) : Prop := ∃ r ∈ t.rows, r.Dst_IP = dst ∧ r.Valid

/-- `addEntry`, which takes the place of the first entry without a destination, if there is one behind
the node's own. -/
def addEntry (in_Dst_IP in_Nexthop_IP : Addr) (in_Metric in_seqNum : Int) (in_seqSignHost : Addr)
    (inRecv : Bool) : RtTable :=
  if (t.ifExist in_Dst_IP).isSome then t
  else
    let r : rt_entry := {
      Dst_IP := in_Dst_IP
      Nexthop_IP := in_Nexthop_IP
      Metric := in_Metric + 1
      seqNum := in_seqNum
      seqSignHost := in_seqSignHost
      Recv_flag := inRecv
      Pkts_handled := 0
      JustUpdated := true }
    match t.rows.tail.findIdx? fun r => r.Dst_IP = 0 with
    | some i => ⟨t.rows.set (i + 1) r⟩
    | none => ⟨t.rows ++ [r]⟩

/-- `ifMtrInf` of an entry of the table. -/
def ifMtrInf (inRtIndex : ℕ) : Bool :=
  match t.rows[inRtIndex]? with
  | none => false
  | some r => r.Dst_IP ≠ r.seqSignHost

/-- An entry takes over a newer or a better route. -/
def updateEntry (in_Dst_IP in_Nexthop_IP : Addr) (in_Metric in_seqNum : Int) (in_seqSignHost : Addr)
    (in_Recv_flag : Bool) : RtTable × UpdateResult :=
  match t.ifExist in_Dst_IP with
  | none => (t, .UPDATE_FAIL)
  | some rt_index =>
    match t.rows[rt_index]? with
    | none => (t, .UPDATE_FAIL)
    | some r =>
      let r' := { r with
        Nexthop_IP := in_Nexthop_IP
        Metric := in_Metric + 1
        seqNum := in_seqNum
        seqSignHost := in_seqSignHost
        Recv_flag := in_Recv_flag
        JustUpdated := true }
      if in_Dst_IP = in_seqSignHost then
        if r.seqNum < in_seqNum ∨ (r.seqNum = in_seqNum ∧ r.Metric > in_Metric + 1) then
          (⟨t.rows.set rt_index r'⟩, .UPDATE_SUCCESS)
        else (t, .UPDATE_FAIL)
      else if t.ifMtrInf rt_index then (t, .UPDATE_FAIL)
      else if r.Nexthop_IP = in_Nexthop_IP then
        (⟨t.rows.set rt_index { r' with Metric := METRIC_INFINITE }⟩, .UPDATE_TOINF)
      else (t, .UPDATE_FAIL)

/-- A destination becomes a receiver, or is none any more. -/
def setRecvflag (in_Dst_IP : Addr) (onoff : Bool) : RtTable :=
  match t.ifExist in_Dst_IP with
  | none => t
  | some rt_index => ⟨t.rows.modify rt_index fun r => { r with Recv_flag := onoff, JustUpdated := true }⟩

/-- A packet for the destination is counted. -/
def hdledCntIncre (inRtIndex : ℕ) : RtTable :=
  ⟨t.rows.modify inRtIndex fun r => { r with Pkts_handled := r.Pkts_handled + 1 }⟩

/-- An entry is removed: the last one takes its place. -/
def rmEntry (inRtIndex : ℕ) : RtTable :=
  if inRtIndex ≥ t.rows.length then t
  else if inRtIndex = t.rows.length - 1 then ⟨t.rows.dropLast⟩
  else
    match t.rows.getLast? with
    | none => t
    | some last => ⟨(t.rows.set inRtIndex last).dropLast⟩

/-- One round of the loop of `refresh`, while the index is below `len`. -/
def refreshAt (i : ℕ) : RtTable :=
  match t.rows[i]? with
  | none => t
  | some r =>
    if r.Dst_IP ≠ r.seqSignHost then
      if i = t.rows.length - 1 then ⟨t.rows.dropLast⟩
      else
        match t.rows.getLast? with
        | none => t
        | some last => ⟨(t.rows.set i last).dropLast⟩
    else t

/-- The broken entries are removed, one place after the other. -/
def refresh : RtTable := (List.range' 1 (t.rows.length - 1)).foldl refreshAt t

/-- The node's own sequence number. -/
def setSeqNow (inSeqNum : Int) : RtTable := ⟨t.rows.modify 0 fun r => { r with seqNum := inSeqNum }⟩

/-- An entry is marked as changed, or as sent. -/
def setJustUpdated (inRtIndex : ℕ) (yesno : Bool) : RtTable :=
  ⟨t.rows.modify inRtIndex fun r => { r with JustUpdated := yesno }⟩

/-- The number of entries that a partial update announces, which counts those without a destination. -/
def NumOfPartial : ℕ :=
  (t.rows.tail.countP fun r => r.JustUpdated || (decide ¬ r.Valid && r.Recv_flag)) + 1

/-- The receivers other than the node itself. -/
def NumOfRecvFlag : ℕ := t.rows.tail.countP rt_entry.Recv_flag

/-- `hdledCntHalf` and `setJustUpdated` of every entry that an update carries. -/
def sentOut (sel : rt_entry → Bool) : RtTable :=
  match t.rows with
  | [] => t
  | own :: rest =>
    ⟨own :: rest.map fun r =>
      if sel r then { r with Pkts_handled := r.Pkts_handled / 2, JustUpdated := false } else r⟩

/-! ## Maintenance -/

/-- The destinations are distinct. -/
def Distinct : Prop := (t.rows.map rt_entry.Dst_IP).Nodup

instance : Decidable t.Distinct := inferInstanceAs (Decidable (t.rows.map rt_entry.Dst_IP).Nodup)

/-- `refresh` keeps the node's own entry and the valid ones; `addEntry` keeps the destinations distinct;
`rmEntry` removes the entry. -/
structure Maintained : Prop where
  own : t.refresh.rows.head? = t.rows.head?
  refresh : t.refresh.rows.tail.Perm (t.rows.tail.filter fun r => r.Valid)
  addEntry : ∀ dst nexthop metric seqNum signHost recv,
    (t.addEntry dst nexthop metric seqNum signHost recv).Distinct
  rmEntry : ∀ i, 1 ≤ i → (t.rmEntry i).rows.head? = t.rows.head? ∧
    (t.rmEntry i).rows.Perm (t.rows.eraseIdx i)

end RtTable

end Adv
