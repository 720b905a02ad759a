import Mathlib.Algebra.Order.Ring.Int
import Mathlib.Logic.Function.Basic
import Nctuns.Lib.Run

/-!
# HCCA admission

`reg_TSPEC` and `delete_TS` of `hc-scheduler.cc`: the traffic streams that were admitted, with the
transmission opportunity of each. Times are in microseconds and service intervals in milliseconds, in the
widths of the source. A descriptor is named by the number of its allocation.
-/

namespace Hcca

/-- An Ethernet address. -/
abbrev EtherAddr := BitVec 48

/-- `indeterminate` is what a variable may hold that was not set. -/
inductive dir_ where
  | UPLINK
  | DOWNLINK
  | indeterminate (value : UInt32)
  deriving DecidableEq, Repr

/-- The transport protocol of a stream. -/
inductive pro_ where
  | UDP
  | TCP
  deriving DecidableEq, Repr

/-- The first identifier of a stream with a specification. -/
def TSID_INDEX : ℕ := 8
/-- The last identifier of a stream. -/
def MAX_TSID : ℕ := 15
/-- The longest transmission opportunity. -/
def MAX_TXOP_LIMIT : UInt16 := 8160
/-- The stations for which there are queues. -/
def MAX_NNUM : ℕ := 10

/-- The sizes of `hdr_mac802_11e` and `ack_frame`. -/
def MAC80211E_HDR_LEN : ℕ := 30
/-- The bytes of an acknowledgement. -/
def MAC80211E_ACK_LEN : ℕ := 14

/-- What the scheduler reads of the bytes of a TSPEC. -/
structure TSPEC where
  TSInfo_TSID : BitVec 4
  TSInfo_UserPriority : BitVec 3
  TSInfo_Direction_Bit_1 : Bool
  TSInfo_Direction_Bit_2 : Bool
  DelayBound : UInt32
  NominalMSDUSize : UInt16
  MaximumMSDUSize : UInt16
  MeanDataRate : UInt32
  MaximumServiceInterval : UInt32
  deriving DecidableEq, Repr

/-- `unset` is the direction before it is set. -/
def TSPEC.direction (tspec : TSPEC) (unset : dir_) : dir_ :=
  if !tspec.TSInfo_Direction_Bit_1 && !tspec.TSInfo_Direction_Bit_2 then .UPLINK
  else if tspec.TSInfo_Direction_Bit_1 && !tspec.TSInfo_Direction_Bit_2 then .DOWNLINK
  else unset

/-- What the scheduler uses of its MAC; `wide` is the conversion to 32 bits of a quotient that is too
large. -/
structure mac802_11e where
  TX_Time : ℕ → UInt64
  sifs : UInt16
  pifs : UInt16
  wide : ℕ → UInt32

/-- A stream that has been accepted, with its rates and its transmission opportunity. -/
structure tspec_desc where
  ptr : ℕ
  direction : dir_
  tsid : BitVec 4
  qsta : EtherAddr
  mean_rate : UInt32
  mean_MSDU_size : UInt16
  max_MSDU_size : UInt16
  txop : UInt16
  pre_txop : UInt16
  max_SI : UInt32
  overhead : UInt16
  delay_bound : UInt32
  Num : UInt32
  protocol : pro_
  user_pri : BitVec 3
  deriving DecidableEq, Repr

/-- The packets of a queue, by number. -/
abbrev ParaQueue := List ℕ

/-- The scheduler: its streams, the place where it is in the service interval and the copy of that. -/
structure QosScheduler_HC where
  head_desc : List tspec_desc
  curr_desc : Option ℕ
  pre_desc : Option ℕ
  tsNum : Int
  Service_Interval : UInt16
  pre_SI : UInt16
  SIstart : UInt64
  TXOPstart : UInt64
  pre_SIstart : UInt64
  pre_TXOPstart : UInt64
  first_call : Bool
  first_deque : Bool
  pre_deque : Bool
  ts_ : ℕ → Option (ℕ → Option ParaQueue)
  max_qsta : Int
  srcmac : List EtherAddr
  allocs : ℕ

/-- The program stops at a failed assertion; outside an array and at a null pointer nothing is defined. -/
inductive Stop where
  | assert
  | bounds
  | null
  deriving DecidableEq, Repr

namespace QosScheduler_HC

/-- The constructor. -/
def init (mac_ : EtherAddr) : QosScheduler_HC where
  head_desc := []
  curr_desc := none
  pre_desc := none
  tsNum := 0
  Service_Interval := 0
  pre_SI := 0
  SIstart := 0
  TXOPstart := 0
  pre_SIstart := 0
  pre_TXOPstart := 0
  first_call := true
  first_deque := false
  pre_deque := false
  ts_ _ := none
  max_qsta := -1
  srcmac := [mac_]
  allocs := 0

/-- `none` is a failed assertion. -/
def getIndex (s : QosScheduler_HC) (src : EtherAddr) : Option (QosScheduler_HC × ℕ) :=
  if src ∈ s.srcmac then some (s, s.srcmac.idxOf src)
  else if s.srcmac.length < MAX_NNUM then
    some ({ s with srcmac := s.srcmac ++ [src] }, s.srcmac.length)
  else none

/-- The stream of a station, a direction and an identifier. -/
def find_TSPECdesc (head_desc : List tspec_desc) (mac : EtherAddr) (direction : dir_) (tsid : BitVec 4) :
    Option tspec_desc :=
  head_desc.find? fun p => p.qsta = mac ∧ p.direction = direction ∧ p.tsid = tsid

/-- The new stream; `txop` is not set before it is computed. -/
def create_TSPECdesc (e : mac802_11e) (ptr : ℕ) (mac : EtherAddr) (tspec : TSPEC) (proto : pro_)
    (unset : dir_) : tspec_desc where
  ptr := ptr
  direction := tspec.direction unset
  tsid := tspec.TSInfo_TSID
  qsta := mac
  mean_rate := tspec.MeanDataRate
  mean_MSDU_size := tspec.NominalMSDUSize
  max_MSDU_size := tspec.MaximumMSDUSize
  txop := 0
  pre_txop := 0
  max_SI := tspec.MaximumServiceInterval
  overhead :=
    if tspec.direction unset = .DOWNLINK then 0
    else (e.TX_Time MAC80211E_HDR_LEN + e.sifs.toUInt64 + e.TX_Time MAC80211E_ACK_LEN).toUInt16
  delay_bound := tspec.DelayBound
  Num := 0
  protocol := proto
  user_pri := tspec.TSInfo_UserPriority

/-- The first step: the least of the maximum service intervals. -/
def minSI (head_desc : List tspec_desc) : UInt16 :=
  head_desc.foldl (fun si p => if si = 0 ∨ p.max_SI < si.toUInt32 then p.max_SI.toUInt16 else si) 0

/-- The number of packets that arrive in a service interval. -/
def numOf (e : mac802_11e) (si : UInt16) (p : tspec_desc) : UInt32 :=
  let n := (si.toNat * p.mean_rate.toNat + p.mean_MSDU_size.toNat - 1) / p.mean_MSDU_size.toNat
  if p.mean_MSDU_size ≠ 0 ∧ n < 2 ^ 32 then .ofNat n else e.wide n

/-- The transmission opportunity for a service interval. -/
def txopOf (e : mac802_11e) (si : UInt16) (p : tspec_desc) : UInt16 :=
  let pkt_time (size : UInt16) : UInt32 := (e.TX_Time (size.toNat + MAC80211E_HDR_LEN) +
    2 * e.sifs.toUInt64 + e.TX_Time MAC80211E_ACK_LEN).toUInt32
  let txop := (max (numOf e si p * pkt_time p.mean_MSDU_size + p.overhead.toUInt32)
    (pkt_time p.max_MSDU_size + p.overhead.toUInt32)).toUInt16 + e.pifs
  if MAX_TXOP_LIMIT < txop then MAX_TXOP_LIMIT else txop

/-- The second step. -/
def schedule (e : mac802_11e) (si : UInt16) (p : tspec_desc) : tspec_desc :=
  { p with Num := numOf e si p, pre_txop := p.txop, txop := txopOf e si p }

/-- The transmission opportunities of all streams, with the gaps between frames. -/
def txop_sum (e : mac802_11e) (head_desc : List tspec_desc) : UInt16 :=
  head_desc.foldl (fun sum p => sum + p.txop + e.pifs) 0

/-- The admission test. -/
def feasible (e : mac802_11e) (si : UInt16) (head_desc : List tspec_desc) : Bool :=
  (txop_sum e head_desc).toUInt32 ≤ si.toUInt32 * 1000

/-- The queue of a downlink stream; the flag says that there was none at its place. -/
def addQueue (s : QosScheduler_HC) (mac : EtherAddr) (tsid : BitVec 4) :
    Except Stop (QosScheduler_HC × Bool) :=
  match s.getIndex mac with
  | none => .error .assert
  | some (s, index) =>
    if tsid.toNat < TSID_INDEX then .error .bounds
    else
      let tsid := tsid.toNat - TSID_INDEX
      match s.ts_ index with
      | some ts =>
        if (index : Int) ≤ s.max_qsta ∧ (ts tsid).isSome then .ok (s, false)
        else .ok ({ s with ts_ := Function.update s.ts_ index (some (Function.update ts tsid (some []))) }, true)
      | none =>
        .ok ({ s with
          max_qsta := index
          ts_ := Function.update s.ts_ index (some (Function.update (fun _ => none) tsid (some []))) }, true)

/-- The queue of a stream is removed. -/
def removeQueue (s : QosScheduler_HC) (mac : EtherAddr) (tsid : BitVec 4) : Except Stop QosScheduler_HC :=
  match s.getIndex mac with
  | none => .error .assert
  | some (s, index) =>
    match s.ts_ index with
    | none => .error .null
    | some ts =>
      .ok { s with
        ts_ := Function.update s.ts_ index (some (Function.update ts (tsid.toNat - TSID_INDEX) none)) }

/-- From the linking of the new stream on. -/
def admission (e : mac802_11e) (s : QosScheduler_HC) (mac : EtherAddr) (tspec : TSPEC) (Direction : dir_)
    (newdesc : tspec_desc) : Except Stop (QosScheduler_HC × Int) :=
  let si := minSI (s.head_desc ++ [newdesc])
  let head_desc := (s.head_desc ++ [newdesc]).map (schedule e si)
  let s := { s with allocs := s.allocs + 1, tsNum := s.tsNum + 1, pre_SI := s.Service_Interval }
  if feasible e si head_desc then
    .ok ({ s with
      head_desc := head_desc
      Service_Interval := si
      curr_desc := head_desc.head?.map tspec_desc.ptr
      first_call := true }, 0)
  else
    let s := { s with head_desc := head_desc.dropLast }
    let s := if Direction = .DOWNLINK then s.removeQueue mac tspec.TSInfo_TSID else .ok s
    s.map fun s =>
      ({ s with
        head_desc := s.head_desc.map fun p => { p with txop := p.pre_txop }
        Service_Interval := s.pre_SI
        tsNum := s.tsNum - 1 }, 1)

/-- `unset` and `unset'` are the directions of `reg_TSPEC` and `create_TSPECdesc` before they are set. -/
def reg_TSPEC (e : mac802_11e) (s : QosScheduler_HC) (mac : EtherAddr) (tspec : TSPEC) (proto : pro_)
    (unset unset' : dir_) : Except Stop (QosScheduler_HC × Int) :=
  let Direction := tspec.direction unset
  if (find_TSPECdesc s.head_desc mac Direction tspec.TSInfo_TSID).isSome then .ok (s, -1)
  else if tspec.NominalMSDUSize = 0 ∨ tspec.MaximumMSDUSize = 0 ∨ tspec.MeanDataRate = 0 ∨
      tspec.MaximumServiceInterval = 0 then .ok (s, -1)
  else if MAX_TSID < tspec.TSInfo_TSID.toNat then .ok (s, -1)
  else
    match Direction with
    | .UPLINK => admission e s mac tspec .UPLINK (create_TSPECdesc e s.allocs mac tspec proto unset')
    | .DOWNLINK =>
      match s.addQueue mac tspec.TSInfo_TSID with
      | .error stop => .error stop
      | .ok (s, false) => .ok (s, -1)
      | .ok (s, true) => admission e s mac tspec .DOWNLINK (create_TSPECdesc e s.allocs mac tspec proto unset')
    | .indeterminate _ => .ok (s, -1)

/-- The place in the service interval goes back to the copy. -/
def recover_status (s : QosScheduler_HC) : QosScheduler_HC :=
  { s with
    first_deque := s.pre_deque
    TXOPstart := s.pre_TXOPstart
    curr_desc := s.pre_desc
    SIstart := s.pre_SIstart
    first_call := true }

/-- A stream is deleted. -/
def delete_TS (s : QosScheduler_HC) (mac : EtherAddr) (direction : dir_) (tsid : BitVec 4) :
    Except Stop QosScheduler_HC :=
  match find_TSPECdesc s.head_desc mac direction tsid with
  | none => .error .null
  | some tmp =>
    let s := { s with
      head_desc := s.head_desc.eraseP fun p => p.qsta = mac ∧ p.direction = direction ∧ p.tsid = tsid }
    let s := if s.curr_desc = some tmp.ptr then s.recover_status else s
    .ok { s with tsNum := s.tsNum - 1 }

end QosScheduler_HC

/-! ## Calls -/

/-- A stream is registered or deleted. -/
inductive Call where
  | reg_TSPEC (mac : EtherAddr) (tspec : TSPEC) (proto : pro_) (unset unset' : dir_)
  | delete_TS (mac : EtherAddr) (direction : dir_) (tsid : BitVec 4)

open QosScheduler_HC in
/-- The scheduler after a call. -/
def step (e : mac802_11e) (s : QosScheduler_HC) : Call → Except Stop QosScheduler_HC
  | .reg_TSPEC mac tspec proto unset unset' => (reg_TSPEC e s mac tspec proto unset unset').map Prod.fst
  | .delete_TS mac direction tsid => s.delete_TS mac direction tsid

/-- The call admits a stream. -/
def Admits (e : mac802_11e) (s : QosScheduler_HC) (c : Call) (s' : QosScheduler_HC) : Prop :=
  ∃ mac tspec proto unset unset', c = .reg_TSPEC mac tspec proto unset unset' ∧
    QosScheduler_HC.reg_TSPEC e s mac tspec proto unset unset' = .ok (s', 0)

/-! ## What admission is for -/

/-- The service interval suits every stream. -/
def SuitsAll (s : QosScheduler_HC) : Prop :=
  ∀ p ∈ s.head_desc, s.Service_Interval.toNat ≤ p.max_SI.toNat

/-- What the streams take of a service interval, in microseconds. -/
def load (e : mac802_11e) (s : QosScheduler_HC) : ℕ :=
  (s.head_desc.map fun p => p.txop.toNat + e.pifs.toNat).sum

/-- The sum of the admission test stays within 16 bits. -/
def SumFits (e : mac802_11e) (s : QosScheduler_HC) : Call → Prop
  | .reg_TSPEC mac tspec proto _ unset' =>
    let head_desc := s.head_desc ++ [QosScheduler_HC.create_TSPECdesc e s.allocs mac tspec proto unset']
    (head_desc.map fun p => (QosScheduler_HC.txopOf e (QosScheduler_HC.minSI head_desc) p).toNat +
      e.pifs.toNat).sum < 2 ^ 16
  | .delete_TS .. => True

/-! ## Refusals -/

namespace QosScheduler_HC

/-- The queue of a station and an identifier. -/
def queue (s : QosScheduler_HC) (index tsid : ℕ) : Option ParaQueue := (s.ts_ index).bind fun ts => ts tsid

/-- The streams with all but `pre_txop`, which is scratch. -/
def streams (s : QosScheduler_HC) : List tspec_desc := s.head_desc.map fun p => { p with pre_txop := 0 }

/-- What a call that admits nothing leaves alone. -/
structure Unchanged (s s' : QosScheduler_HC) : Prop where
  streams : s'.streams = s.streams
  tsNum : s'.tsNum = s.tsNum
  interval : s'.Service_Interval = s.Service_Interval
  queues : ∀ index tsid, s'.queue index tsid = s.queue index tsid

/-- A call that ends without admitting the stream changes nothing, and no call goes outside an array. -/
def Atomic (e : mac802_11e) (s : QosScheduler_HC) (mac : EtherAddr) (tspec : TSPEC) (proto : pro_)
    (unset unset' : dir_) : Prop :=
  match reg_TSPEC e s mac tspec proto unset unset' with
  | .ok (s', result) => result ≠ 0 → s.Unchanged s'
  | .error .assert => True
  | .error _ => False

/-- The stream is refused before anything is done. -/
def Refused (s : QosScheduler_HC) (mac : EtherAddr) (tspec : TSPEC) (unset : dir_) : Prop :=
  (find_TSPECdesc s.head_desc mac (tspec.direction unset) tspec.TSInfo_TSID).isSome ∨
    (tspec.NominalMSDUSize = 0 ∨ tspec.MaximumMSDUSize = 0 ∨ tspec.MeanDataRate = 0 ∨
      tspec.MaximumServiceInterval = 0)

/-- The admission test with the new stream. -/
def Feasible (e : mac802_11e) (s : QosScheduler_HC) (newdesc : tspec_desc) : Prop :=
  let si := minSI (s.head_desc ++ [newdesc])
  feasible e si ((s.head_desc ++ [newdesc]).map (schedule e si)) = true

/-- The service interval with the new stream gives the admitted ones as many packets as they have. -/
def KeepsNums (e : mac802_11e) (s : QosScheduler_HC) (newdesc : tspec_desc) : Prop :=
  ∀ p ∈ s.head_desc, numOf e (minSI (s.head_desc ++ [newdesc])) p = p.Num

/-- A queue stands where that of the stream belongs, and the check for it is made. -/
def Established (s : QosScheduler_HC) (index : ℕ) (tsid : BitVec 4) : Prop :=
  (index : Int) ≤ s.max_qsta ∧ (s.queue index (tsid.toNat - TSID_INDEX)).isSome

/-- When a call is atomic. -/
def AtomicWhen (e : mac802_11e) (s : QosScheduler_HC) (mac : EtherAddr) (tspec : TSPEC) (proto : pro_)
    (unset unset' : dir_) : Prop :=
  let newdesc := create_TSPECdesc e s.allocs mac tspec proto unset'
  s.Refused mac tspec unset ∨
    match tspec.direction unset with
    | .UPLINK => s.Feasible e newdesc ∨ s.KeepsNums e newdesc
    | .DOWNLINK =>
      match s.getIndex mac with
      | none => True
      | some (_, index) => TSID_INDEX ≤ tspec.TSInfo_TSID.toNat ∧
        (s.Established index tspec.TSInfo_TSID ∨ s.Feasible e newdesc ∨
          (s.queue index (tspec.TSInfo_TSID.toNat - TSID_INDEX) = none ∧ s.KeepsNums e newdesc))
    | .indeterminate _ => True

/-- `delete_TS` of a stream in the list removes it and nothing else. -/
def Deletes (s : QosScheduler_HC) (mac : EtherAddr) (direction : dir_) (tsid : BitVec 4) : Prop :=
  match find_TSPECdesc s.head_desc mac direction tsid with
  | none => True
  | some p => ∃ pre post s', s.head_desc = pre ++ p :: post ∧ s.delete_TS mac direction tsid = .ok s' ∧
    s'.head_desc = pre ++ post ∧ s'.tsNum = s.tsNum - 1 ∧ s'.Service_Interval = s.Service_Interval ∧
    ∀ index tsid, s'.queue index tsid = s.queue index tsid

end QosScheduler_HC

end Hcca
