import Mathlib.Data.Fin.VecNotation
import Mathlib.Data.List.Sort
import Nctuns.Wimax.BandwidthReport

/-!
# The scheduler of the base station

`scheduler.cc`: before each frame the base station divides its 720 symbols between the bursts of the
downlink, one for each profile in use, and the allocations of the uplink. The maps that announce them are
part of the first burst. The floating-point arithmetic is exact where it is used: a symbol is 80 physical
slots. An `int` does not overflow.
-/

namespace Wimax

/-- Symbols of a long preamble. -/
def LONG_PREAMBLE : Int := 2

/-- Symbols of a short preamble. -/
def SHORT_PREAMBLE : Int := 1

/-- Symbols of the downlink frame prefix. -/
def DLFP_LEN : Int := 1

/-- In a frame of 10 ms, with 13.8875 µs for a symbol. -/
def symbolsPerFrame : Int := 720

/-- Physical slots of a number of symbols. -/
def symbolsToPSs (nsymbols : Int) : Int := nsymbols * 80

scoped instance neZero_diucs : NeZero 16 := ⟨by decide⟩

/-- The profile that every station can receive. -/
def RobustDIUC : Fin 16 := 1

/-- The code of the last entry of a map. -/
def EndOfMap : Nat := 14

/-- The connection of stations that enter the network. -/
def initRangingCID : UInt16 := 0x0000

/-- The connection of all stations. -/
def broadcastCID : UInt16 := 0xFFFF

/-! ## Bytes and symbols -/

/-- Bytes that a symbol carries under each code. -/
def uncodedBlockSize : Fin 7 → Nat := ![12, 24, 36, 48, 72, 96, 108]

/-- Symbols for a number of bytes and the byte behind them that the code adds, rounded up. -/
def bytesToSymbols (bytes : Int) (fec : Fin 7) : Int :=
  if bytes = 0 then 0
  else
    let r := (bytes + 1).tdiv (uncodedBlockSize fec)
    if bytes + 1 - r * uncodedBlockSize fec > 0 then r + 1 else r

/-- Bytes for which a number of symbols has room. -/
def symbolsToBytes (symbols : Int) (fec : Fin 7) : Int := symbols * uncodedBlockSize fec - 1

/-! ## Connections -/

/-- A management message: a type, fields of at most 255 bytes and values of at most 256. -/
structure ManagementMessage where
  getLen : Nat
  min : 1 < getLen
  max : getLen ≤ 1 + 255 + 256
  deriving DecidableEq

/-- What a message needs as a PDU: header and CRC. -/
def ManagementMessage.pdulen (mmsg : ManagementMessage) : Nat := 6 + mmsg.getLen + 4

/-- The queue is far from filling the memory. -/
structure ManagementConnection where
  cid : UInt16
  PduQ : List ManagementMessage
  max : (PduQ.map ManagementMessage.pdulen).sum < 2 ^ 30
  deriving DecidableEq

namespace ManagementConnection

/-- The lengths of the waiting PDUs and their sum. -/
def GetInformation (c : ManagementConnection) : Nat × List Nat :=
  ((c.PduQ.map ManagementMessage.pdulen).sum, c.PduQ.map ManagementMessage.pdulen)

/-- The loop of `EncapsulateAll`: what it returns. -/
def encapsulate (maxlen : Nat) : List ManagementMessage → (sendlen : Nat) → Nat
  | [], sendlen => sendlen
  | mmsg :: rest, sendlen =>
    if sendlen < maxlen then
      if sendlen + mmsg.pdulen > maxlen then sendlen else encapsulate maxlen rest (sendlen + mmsg.pdulen)
    else sendlen

/-- The bytes written to a burst of `maxlen` bytes. -/
def EncapsulateAll (c : ManagementConnection) (maxlen : Nat) : Nat := encapsulate maxlen c.PduQ 0

end ManagementConnection

/-- A data connection of a subscriber station, after the calls that were made. Its queue is limited to
    10000 packets. -/
structure DataConnection where
  k : ConnClass
  cid : UInt16
  calls : List (Connection.Call k)
  max : (calls.foldl Connection.call (Connection.new k cid 0 false)).needed.sum < 2 ^ 31

namespace DataConnection

/-- The connection after all calls that have been made. -/
def toConnection (c : DataConnection) : Connection c.k := c.calls.foldl Connection.call (Connection.new c.k c.cid 0 false)

/-- The lengths of the waiting PDUs and their sum. -/
def GetInformation (c : DataConnection) : Nat × List Nat :=
  match c.toConnection.GetInformation with
  | .ok information => information
  | .error _ => (0, [])

/-- The bytes written to a burst of `maxlen` bytes. -/
def EncapsulateAll (c : DataConnection) (maxlen : Nat) : Nat := c.toConnection.sendlen maxlen

end DataConnection

/-! ## Maps -/

/-- An entry of the DL-MAP. -/
structure OFDM_DLMAP_IE where
  cid : UInt16
  diuc : Nat
  preamble : Nat
  stime : Nat
  deriving DecidableEq, Repr

/-- An entry of the UL-MAP. -/
structure OFDM_ULMAP_IE where
  cid : UInt16
  stime : Nat
  uiuc : Nat
  duration : Nat
  deriving DecidableEq, Repr

/-- A message of the broadcast connection. The information elements of the maps have 4 and 6 bytes. -/
inductive BroadcastMessage where
  | DLMAP (ies : List OFDM_DLMAP_IE)
  | ULMAP (allocStartTime : Int) (ies : List OFDM_ULMAP_IE)
  | DCD (mmsg : ManagementMessage)
  | UCD (mmsg : ManagementMessage)
  | CLKCMP (mmsg : ManagementMessage)
  deriving DecidableEq

namespace BroadcastMessage

/-- The length of the message: a byte for its type and its fields. -/
def getLen : BroadcastMessage → Nat
  | .DLMAP ies => 1 + (7 + ies.length * 4)
  | .ULMAP _ ies => 1 + (6 + ies.length * 6)
  | .DCD mmsg | .UCD mmsg | .CLKCMP mmsg => mmsg.getLen

/-- The length of the PDU: generic header, message and CRC. -/
def pdulen (m : BroadcastMessage) : Nat := 6 + m.getLen + 4

end BroadcastMessage

/-- The broadcast connection has one slot for each kind of message. -/
structure BroadcastConnection where
  DLMAP : Option (List OFDM_DLMAP_IE)
  ULMAP : Option (Int × List OFDM_ULMAP_IE)
  DCD : Option ManagementMessage
  UCD : Option ManagementMessage
  CLKCMP : Option ManagementMessage
  deriving DecidableEq

namespace BroadcastConnection

/-- The slots in the order in which they are sent. -/
def Slot (c : BroadcastConnection) : List (Option BroadcastMessage) :=
  [c.DLMAP.map .DLMAP, c.ULMAP.map fun map => .ULMAP map.1 map.2, c.DCD.map .DCD, c.UCD.map .UCD,
    c.CLKCMP.map .CLKCMP]

/-- The messages that wait. -/
def waiting (c : BroadcastConnection) : List BroadcastMessage := c.Slot.reduceOption

/-- The lengths of the waiting PDUs and their sum. -/
def GetInformation (c : BroadcastConnection) : Nat × List Nat :=
  ((c.waiting.map BroadcastMessage.pdulen).sum, c.waiting.map BroadcastMessage.pdulen)

/-- The loop of `EncapsulateAll` over the slots: what it sends. -/
def encapsulate (maxlen : Nat) : List (Option BroadcastMessage) → (sendlen : Nat) → List BroadcastMessage
  | [], _ => []
  | none :: rest, sendlen => encapsulate maxlen rest sendlen
  | some m :: rest, sendlen =>
    if sendlen + m.pdulen > maxlen then [] else m :: encapsulate maxlen rest (sendlen + m.pdulen)

/-- The messages written to a burst of `maxlen` bytes. -/
def EncapsulateAll (c : BroadcastConnection) (maxlen : Nat) : List BroadcastMessage := encapsulate maxlen c.Slot 0

end BroadcastConnection

/-! ## Bursts -/

/-- A connection that has a part in a burst. -/
inductive BurstConnection where
  | management (c : ManagementConnection)
  | data (c : DataConnection)
  | broadcast

/-- The connection identifier. -/
def BurstConnection.getCID : BurstConnection → UInt16
  | .management c => c.cid
  | .data c => c.cid
  | .broadcast => broadcastCID

/-- What a connection needs in a burst: its PDUs, and how many of them have been granted symbols. -/
structure AllocInfo where
  conn : BurstConnection
  len : Int
  pduInfo : List Nat
  position : Nat

namespace AllocInfo

/-- Nothing is granted yet. -/
def new (c : BurstConnection) (l : Int) (p : List Nat) : AllocInfo := ⟨c, l, p, 0⟩

/-- The length of the next PDU that waits for a grant, 0 behind the last one. -/
def getNext (a : AllocInfo) : Nat := a.pduInfo.getD a.position 0

end AllocInfo

/-- A burst of the downlink: its profile and its place, what it has been granted and who has a part in
    it. -/
structure downBurst where
  diuc : Fin 16
  fec : Fin 7
  cid : UInt16
  stime : Nat
  length : Int
  duration : Int
  ConnectionCollection : List AllocInfo

namespace downBurst

/-- A burst without connections. -/
def new (diuc : Fin 16) (fec : Fin 7) : downBurst := ⟨diuc, fec, 0, 0, 0, 0, []⟩

/-- Symbols that the burst needs for a number of bytes. -/
def toSymbol (b : downBurst) (byte : Int) : Int := bytesToSymbols byte b.fec

/-- Bytes for which the burst has room in a number of symbols. -/
def toByte (b : downBurst) (symbol : Int) : Int := symbolsToBytes symbol b.fec

/-- Connections get a part in the burst. -/
def push_back (b : downBurst) (as : List AllocInfo) : downBurst :=
  { b with ConnectionCollection := b.ConnectionCollection ++ as }

/-- The information element of the burst. -/
def ie (b : downBurst) : OFDM_DLMAP_IE := ⟨b.cid, b.diuc, 0, b.stime⟩

end downBurst

/-- An uplink allocation. -/
structure upBurst where
  cid : UInt16
  uiuc : Nat
  stime : Nat
  duration : Nat
  deriving DecidableEq, Repr

namespace upBurst

/-- The start has 11 bits, the duration 10. -/
def new (cid : UInt16) (uiuc : Nat) (stime duration : Nat) : upBurst := ⟨cid, uiuc, stime % 2 ^ 11, duration % 2 ^ 10⟩

/-- The entry of the burst in the UL-MAP. -/
def ie (b : upBurst) : OFDM_ULMAP_IE := ⟨b.cid, b.stime, b.uiuc, b.duration⟩

/-- Where the last allocation ends. -/
def stop (c : List upBurst) : Nat :=
  match c.getLast? with
  | none => 0
  | some b => b.stime + b.duration

end upBurst

/-! ## The base station -/

/-- A subscriber station. `bitsPerFrame` is what its provisioned flow is worth, if it has one. -/
structure ssObject where
  BasicCID : UInt16
  diuc : Fin 16
  uiuc : Fin 16
  bitsPerFrame : Option Nat
  MnConnections : List ManagementConnection
  DataConnections : List DataConnection

/-- What the scheduler reads. `sslist` and `MnConnections` without the empty entries. -/
structure PMPBS where
  sslist : List ssObject
  PolledList : List UInt16
  initRangingConnection : ManagementConnection
  broadcastConnection : BroadcastConnection
  DCDProfile : Fin 16 → Fin 7
  UCDProfile : Fin 16 → Fin 7
  dlmapflag : Bool

/-- How `Scheduling` ends without a frame. -/
inductive SchedulingFault where
  /-- `exit`: nothing to give to a station. -/
  | noAllocation
  /-- `exit`: too many UGS connections. -/
  | tooManyUGS
  /-- The size of a map is an `unsigned char`: the UL-MAP is written past its end. -/
  | overrun
  /-- A payload of a negative length. -/
  | badAlloc
  /-- The loop of `DLScheduling` does not end. -/
  | endless
  deriving DecidableEq, Repr

namespace PMPBS

/-! ### Downlink -/

/-- Changes the burst of the profile, which is appended when there is none. -/
def GetCorrespondBurst (s : PMPBS) (diuc : Fin 16) (f : downBurst → downBurst) : List downBurst → List downBurst
  | [] => [f (.new diuc (s.DCDProfile diuc))]
  | b :: bs => if b.diuc = diuc then f b :: bs else b :: s.GetCorrespondBurst diuc f bs

/-- What the management connections ask for, with the whole length from the beginning. -/
def managementInfos (cs : List ManagementConnection) : List AllocInfo :=
  (cs.filter fun c => c.GetInformation.1 > 0).map fun c =>
    .new (.management c) c.GetInformation.1 c.GetInformation.2

/-- What the data connections ask for. -/
def dataInfos (cs : List DataConnection) : List AllocInfo :=
  (cs.filter fun c => c.GetInformation.1 > 0).map fun c => .new (.data c) 0 c.GetInformation.2

/-- The bursts with all that is to be sent, before anything is granted. -/
def collect (s : PMPBS) : List downBurst :=
  let ranging := managementInfos [s.initRangingConnection]
  let bursts :=
    if ranging = [] then []
    else s.GetCorrespondBurst RobustDIUC (fun b => { b.push_back ranging with cid := initRangingCID }) []
  s.sslist.foldl (fun bursts pSS =>
    s.GetCorrespondBurst pSS.diuc (fun b =>
      b.push_back (managementInfos pSS.MnConnections ++ dataInfos pSS.DataConnections)) bursts) bursts

end PMPBS

/-- The loop over the connections of a burst, when the other bursts have `allocSymbols`: one PDU of each,
    until one does not fit. It gets what is left. -/
def downBurst.select (availableSymbols allocSymbols : Int) :
    (burst : downBurst) → (isDone : Bool) → List AllocInfo → downBurst × Bool × List AllocInfo
  | burst, isDone, [] => (burst, isDone, [])
  | burst, isDone, aInfo :: as =>
    if aInfo.position ≥ aInfo.pduInfo.length then
      let (burst, isDone, as) := downBurst.select availableSymbols allocSymbols burst isDone as
      (burst, isDone, aInfo :: as)
    else
      let burst :=
        if burst.cid ≠ broadcastCID ∧ burst.cid ≠ aInfo.conn.getCID then
          { burst with cid := aInfo.conn.getCID }
        else burst
      let symbols := burst.toSymbol (burst.length + aInfo.getNext)
      if allocSymbols + symbols > availableSymbols then
        let room := burst.toByte (availableSymbols - allocSymbols)
        ({ burst with length := room }, true,
          { aInfo with len := aInfo.len + (room - burst.length) } :: as)
      else
        let (burst', isDone, as) := downBurst.select availableSymbols allocSymbols
          { burst with length := burst.length + aInfo.getNext } false as
        (burst', isDone,
          { aInfo with len := aInfo.len + aInfo.getNext, position := aInfo.position + 1 } :: as)

namespace PMPBS

/-- The loop over the bursts. -/
def round (availableSymbols : Int) : (allocSymbols : Int) → (isDone : Bool) → List downBurst →
    Int × Bool × List downBurst
  | allocSymbols, isDone, [] => (allocSymbols, isDone, [])
  | allocSymbols, isDone, burst :: bursts =>
    let others := allocSymbols - burst.duration
    let (burst, isDone, as) := burst.select availableSymbols others isDone burst.ConnectionCollection
    let duration := burst.toSymbol burst.length
    let (allocSymbols, isDone, bursts) := round availableSymbols (others + duration) isDone bursts
    (allocSymbols, isDone, { burst with duration := duration, ConnectionCollection := as } :: bursts)

/-- `while (!isDone)`. -/
def rounds (availableSymbols : Int) : (fuel : Nat) → (allocSymbols : Int) → List downBurst →
    Option (Int × List downBurst)
  | 0, _, _ => none
  | fuel + 1, allocSymbols, bursts =>
    let (allocSymbols, isDone, bursts) := round availableSymbols allocSymbols true bursts
    if isDone then some (allocSymbols, bursts) else rounds availableSymbols fuel allocSymbols bursts

/-- The PDUs that have not been granted. -/
def waiting (bursts : List downBurst) : Nat :=
  (bursts.map fun b => (b.ConnectionCollection.map fun a => a.pduInfo.length - a.position).sum).sum

/-- `coin` is `rand() % 2`. -/
def DLScheduling (s : PMPBS) (coin : Bool) (availableSymbols : Int) : Option (Int × List downBurst) :=
  let bursts := s.collect
  let bursts :=
    if coin then bursts.map fun b => { b with ConnectionCollection := b.ConnectionCollection.reverse }
    else bursts
  rounds availableSymbols (waiting bursts + 1) 0 bursts

/-! ### Uplink -/

/-- The allocations in which polled stations and others do their initial ranging, and one for requests. -/
def ContentionScheduling (s : PMPBS) : List upBurst × Nat :=
  let invited := s.PolledList.mapIdx fun i cid => upBurst.new cid 1 (5 * i) 5
  let stime := 5 * s.PolledList.length
  (invited ++ [.new broadcastCID 1 stime 5, .new broadcastCID 2 (stime + 5) 2], stime + 5 + 2)

/-- The loop of `UGSScheduling`, from the start `stime`. -/
def ugs (s : PMPBS) (availableSymbols : Int) : (stime : Nat) → (allocSymbols : Nat) → List ssObject →
    Except SchedulingFault (List upBurst × Nat)
  | _, allocSymbols, [] => .ok ([], allocSymbols)
  | stime, allocSymbols, pSS :: rest =>
    match pSS.bitsPerFrame with
    | none => ugs s availableSymbols stime allocSymbols rest
    | some bitsPerFrame => do
      let symbols := bytesToSymbols (bitsPerFrame / 8 : Nat) (s.UCDProfile pSS.uiuc)
      if symbols ≤ 0 then throw .noAllocation
      let symbols := symbols + SHORT_PREAMBLE
      if allocSymbols + symbols > availableSymbols then throw .tooManyUGS
      let (bursts, allocSymbols) ← ugs s availableSymbols (stime + symbols.toNat) (allocSymbols + symbols.toNat) rest
      return (.new pSS.BasicCID pSS.uiuc stime symbols.toNat :: bursts, allocSymbols)

/-- The uplink bursts of the unsolicited grants, behind those of the collection. -/
def UGSScheduling (s : PMPBS) (collection : List upBurst) (availableSymbols : Int) :
    Except SchedulingFault (List upBurst × Nat) :=
  s.ugs availableSymbols (upBurst.stop collection) 0 s.sslist

/-! ### Maps -/

/-- The start of the element at the end of a DL-MAP. Without bursts it is the length of the map. -/
def endOfMap (c : List downBurst) : Int :=
  match c.getLast? with
  | none => 15
  | some b => b.stime + b.duration

/-- The DL-MAP for the sorted bursts, with the end of the map as its last entry. -/
def generate_DL_MAP (s : PMPBS) (c : List downBurst) : PMPBS :=
  if c.length ≤ 4 ∧ s.dlmapflag = false then s
  else
    let first : List OFDM_DLMAP_IE :=
      if c.length = 0 then [⟨broadcastCID, RobustDIUC, 0, (DLFP_LEN + LONG_PREAMBLE).toNat⟩] else []
    let listed := (if s.dlmapflag then c else c.drop 4).map downBurst.ie
    let last : OFDM_DLMAP_IE := ⟨broadcastCID, EndOfMap, 0, (endOfMap c % 2 ^ 11).toNat⟩
    { s with broadcastConnection.DLMAP := some (first ++ listed ++ [last]) }

/-- The UL-MAP for the uplink bursts, with the end of the map as its last entry. -/
def generate_UL_MAP (s : PMPBS) (c : List upBurst) (allocStartTime : Int) : Except SchedulingFault PMPBS :=
  let last : OFDM_ULMAP_IE := ⟨broadcastCID, upBurst.stop c % 2 ^ 11, EndOfMap, 0⟩
  let len := 6 + (c.length + 1) * 6
  if len < 2 ^ 8 then
    .ok { s with broadcastConnection.ULMAP := some (allocStartTime, c.map upBurst.ie ++ [last]) }
  else .error .overrun

/-! ### A frame -/

/-- A burst with its payload: what each connection has written, and the messages of the broadcast
    connection. -/
structure Sent where
  burst : downBurst
  written : List Nat
  messages : List BroadcastMessage

/-- What `Scheduling` returns, and what it announces. -/
structure Frame where
  bursts : List Sent
  upBursts : List upBurst
  allocStartTime : Int
  broadcastConnection : BroadcastConnection

/-- The broadcast messages are put in front of the first burst, which is created when there is none. -/
def addBroadcast (s : PMPBS) (bursts : List downBurst) : List downBurst :=
  let (allocLen, PduInfo) := s.broadcastConnection.GetInformation
  let add (b : downBurst) : downBurst := { b with
    ConnectionCollection := .new .broadcast allocLen PduInfo :: b.ConnectionCollection
    length := b.length + allocLen
    cid := broadcastCID }
  if allocLen > 0 then
    match bursts with
    | [] => s.GetCorrespondBurst RobustDIUC add []
    | b :: bs => add b :: bs
  else bursts

/-- Start times and durations, from the symbol `len` on. -/
def place : (len : Int) → List downBurst → List downBurst
  | _, [] => []
  | len, b :: bs =>
    let duration := b.toSymbol b.length
    { b with stime := (len % 2 ^ 11).toNat, duration := duration } :: place (len + duration) bs

/-- `requestLen` is unsigned. -/
def requestLen (a : AllocInfo) : Nat := (a.len % 2 ^ 32).toNat

/-- What a connection writes into the payload: its length, and the messages of the broadcast connection. -/
def write (c : BroadcastConnection) (a : AllocInfo) : Nat × List BroadcastMessage :=
  match a.conn with
  | .management m => (m.EncapsulateAll (requestLen a), [])
  | .data d => (d.EncapsulateAll (requestLen a), [])
  | .broadcast => (((c.EncapsulateAll (requestLen a)).map BroadcastMessage.pdulen).sum, c.EncapsulateAll (requestLen a))

/-- The payload of a burst. -/
def send (c : BroadcastConnection) (b : downBurst) : Except SchedulingFault Sent :=
  if b.length < 0 then .error .badAlloc
  else .ok
    { burst := b
      written := b.ConnectionCollection.map fun a => (write c a).1
      messages := b.ConnectionCollection.flatMap fun a => (write c a).2 }

/-- The uplink, and what it leaves for the downlink. 30 symbols are kept for the broadcast messages. -/
def uplink (s : PMPBS) : Except SchedulingFault (List upBurst × Int) := do
  let symbolsPerFrame := symbolsPerFrame - LONG_PREAMBLE - DLFP_LEN
  let ULAvailableSymbols := symbolsPerFrame / 2
  let DLAvailableSymbols := symbolsPerFrame - ULAvailableSymbols
  let (contention, symbols) := s.ContentionScheduling
  let ULAvailableSymbols := ULAvailableSymbols - symbols
  let (granted, symbols) ← s.UGSScheduling contention ULAvailableSymbols
  let ULAvailableSymbols := ULAvailableSymbols - symbols
  return (contention ++ granted, DLAvailableSymbols + ULAvailableSymbols - 30)

/-- A frame: the uplink first, then the downlink with what is left, the maps, and the data into their
    bursts. -/
def Scheduling (s : PMPBS) (coin : Bool) : Except SchedulingFault Frame := do
  let (upBursts, DLAvailableSymbols) ← s.uplink
  match s.DLScheduling coin DLAvailableSymbols with
  | none => throw .endless
  | some (allocSymbols, bursts) =>
    let allocStartTime := symbolsToPSs (LONG_PREAMBLE + 1 + allocSymbols + 30)
    let s ← s.generate_UL_MAP upBursts allocStartTime
    let bursts := bursts.mergeSort fun a b => a.diuc ≤ b.diuc
    let s := s.generate_DL_MAP bursts
    let bursts := (place (LONG_PREAMBLE + DLFP_LEN) (s.addBroadcast bursts)).filter fun b => b.duration ≠ 0
    let s := s.generate_DL_MAP bursts
    let bursts ← bursts.mapM (send s.broadcastConnection)
    return ⟨bursts, upBursts, allocStartTime, s.broadcastConnection⟩

end PMPBS

end Wimax
