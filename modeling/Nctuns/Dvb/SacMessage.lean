import Nctuns.Dvb.Sac
import Nctuns.Lib.LittleEndian

/-!
# SAC messages

How a `Sac` is written to a message and read from it (`common/sac.cc`). An enumeration has four bytes.
-/

namespace Dvb

open LittleEndian

/-- What stops a writer or a reader: an assertion, a request that was never set, a message that ends too
    early, or a value that its enumeration does not have. -/
inductive SacMessageHalt
  | assertion
  | unset
  | overread
  | enumerator
  deriving DecidableEq, Repr

/-- The message of a control field. -/
inductive MAndCMessageValue
  | NO_MESSAGE
  | FINE_SYNCHRONIZATION_ACHIEVED
  | LOG_OFF_REQUEST
  deriving DecidableEq, Repr

namespace MAndCMessageValue

/-- The code of a message. -/
def code : MAndCMessageValue → Nat
  | NO_MESSAGE => 0x0000
  | FINE_SYNCHRONIZATION_ACHIEVED => 0x0001
  | LOG_OFF_REQUEST => 0x0002

/-- The message that a code stands for. -/
def ofCode : Nat → Except SacMessageHalt MAndCMessageValue
  | 0 => .ok NO_MESSAGE
  | 1 => .ok FINE_SYNCHRONIZATION_ACHIEVED
  | 2 => .ok LOG_OFF_REQUEST
  | _ => .error .enumerator

end MAndCMessageValue

namespace CapacityRequestType

/-- The code of a kind of request. -/
def code : CapacityRequestType → UInt16
  | VBDC => 0
  | RBDC => 1
  | AVBDC => 2

/-- The kind of request that a code stands for. -/
def ofCode : UInt8 → Except SacMessageHalt CapacityRequestType
  | 0 => .ok VBDC
  | 1 => .ok RBDC
  | 2 => .ok AVBDC
  | _ => .error .enumerator

end CapacityRequestType

namespace CapacityRequest

/-- `c_r_ref` of `gen_sac_message`. -/
def put (r : CapacityRequest) : UInt16 :=
  (if r.scaling_factor = .SCALING_FACTOR_1 then (0 : UInt16) else 1) |||
    ((r.capacity_request_type.code &&& 7) <<< 1) |||
    ((r.channel_id.toUInt16 &&& 15) <<< 4) |||
    (r.capacity_request_value.toUInt16 <<< 8)

/-- A request from its two bytes. -/
def get (one_byte next_byte : UInt8) : Except SacMessageHalt CapacityRequest := do
  let type ← CapacityRequestType.ofCode ((one_byte >>> 1) &&& 7)
  .ok
    { scaling_factor := if one_byte &&& 0x01 ≠ 0 then .SCALING_FACTOR_16 else .SCALING_FACTOR_1
      capacity_request_type := type
      channel_id := (one_byte >>> 4) &&& 0x0f
      capacity_request_value := next_byte }

end CapacityRequest

/-- The signal quality and the coding that the terminal asks for. -/
structure Acm where
  cni : UInt8
  modcod_rq : UInt8
  deriving DecidableEq, Repr

/-- The fields of a SAC that are always there or always not. -/
structure SacFlags where
  route_id_flag : Bool
  request_flag : Bool
  m_and_c_flag : Bool
  group_id_flag : Bool
  logon_id_flag : Bool
  acm_flag : Bool
  deriving DecidableEq, Repr

/-- `Sac` with all its fields. Of `capacity_requests` there are the entries that were set. -/
structure SacMessage where
  flags : SacFlags
  capacity_requests : List CapacityRequest
  capacity_request_number : UInt8
  route_id : UInt16
  group_id : UInt8
  logon_id : UInt16
  m_and_c_message : MAndCMessageValue
  acm : Acm
  deriving DecidableEq, Repr

namespace SacMessage

/-- `Sac::Sac`, without the requests that are cleared. -/
def new : SacMessage where
  flags := ⟨false, true, true, true, true, false⟩
  capacity_requests := []
  capacity_request_number := Sac.NO_CAPACITY_REQUEST
  route_id := 0
  group_id := 0
  logon_id := 0
  m_and_c_message := .NO_MESSAGE
  acm := ⟨0, 0⟩

/-- `Sac::sac_length`. -/
def sac_length (s : SacMessage) : Except SacMessageHalt UInt8 :=
  if s.flags.request_flag ∧ s.capacity_request_number = Sac.NO_CAPACITY_REQUEST then .error .assertion
  else
    .ok ((if s.flags.route_id_flag then 0 else 2) +
      (if s.flags.request_flag then 2 * (s.capacity_request_number + 1) else 0) +
      (if s.flags.m_and_c_flag then 2 else 0) + (if s.flags.group_id_flag then 1 else 0) +
      (if s.flags.logon_id_flag then 2 else 0) + if s.flags.acm_flag then 0 else 2)

/-- The loop of `gen_sac_message`. -/
def putRequests (s : SacMessage) : Except SacMessageHalt (List UInt8) :=
  if s.flags.request_flag = false then .ok []
  else if s.capacity_requests.length ≤ s.capacity_request_number.toNat then .error .unset
  else
    .ok ((s.capacity_requests.take (s.capacity_request_number.toNat + 1)).flatMap fun r =>
      bytes 2 r.put.toNat)

/-- `Sac::gen_sac_message`: `length`, and all bytes that are written from `sac_message_buf` on. -/
def gen_sac_message (s : SacMessage) : Except SacMessageHalt (UInt8 × List UInt8) := do
  let length ← s.sac_length
  let requests ← s.putRequests
  .ok (length,
    (if !s.flags.route_id_flag then bytes 2 s.route_id.toNat else []) ++ requests ++
      -- `sizeof (m_and_c_message)`
      (if s.flags.m_and_c_flag then bytes 4 s.m_and_c_message.code else []) ++
      (if s.flags.group_id_flag then bytes 1 s.group_id.toNat else []) ++
      (if s.flags.logon_id_flag then bytes 2 s.logon_id.toNat else []) ++
      if !s.flags.acm_flag then [s.acm.cni, s.acm.modcod_rq] else [])

/-- The word of `k` bytes at `look_ptr`. -/
def look (k : Nat) (look_ptr : List UInt8) : Except SacMessageHalt (Nat × List UInt8) :=
  match read k look_ptr with
  | some r => .ok r
  | none => .error .overread

/-- A field of the message, which stays zero if it is not there. -/
def lookIf (flag : Bool) (k : Nat) (look_ptr : List UInt8) : Except SacMessageHalt (Nat × List UInt8) :=
  if flag then look k look_ptr else .ok (0, look_ptr)

/-- `acm`, if it is there. -/
def lookAcm (flag : Bool) (look_ptr : List UInt8) : Except SacMessageHalt Acm :=
  match flag, look_ptr with
  | false, _ => .ok ⟨0, 0⟩
  | true, cni :: modcod_rq :: _ => .ok ⟨cni, modcod_rq⟩
  | true, _ => .error .overread

/-- The loop of the constructor, with the requests that are still to be read. -/
def getRequests : Nat → List UInt8 → Except SacMessageHalt (List CapacityRequest × List UInt8)
  | 0, look_ptr => .ok ([], look_ptr)
  | n + 1, look_ptr => do
    let (one_byte, look_ptr) ← look 1 look_ptr
    let (next_byte, look_ptr) ← look 1 look_ptr
    let r ← CapacityRequest.get (.ofNat one_byte) (.ofNat next_byte)
    let (rs, look_ptr) ← getRequests n look_ptr
    .ok (r :: rs, look_ptr)

/-- The requests, if they are there. -/
def lookRequests (flag : Bool) (capacity_request_number : UInt8) (look_ptr : List UInt8) :
    Except SacMessageHalt (List CapacityRequest × List UInt8) :=
  if flag then getRequests (capacity_request_number.toNat + 1) look_ptr else .ok ([], look_ptr)

/-- `Sac::Sac (const void *sac_message, ...)`. -/
def ofMessage (sac_message : List UInt8) (flags : SacFlags) (capacity_request_number : UInt8) :
    Except SacMessageHalt SacMessage :=
  if ¬ capacity_request_number < 8 then .error .assertion
  else do
    let (route_id, look_ptr) ← lookIf (!flags.route_id_flag) 2 sac_message
    let (capacity_requests, look_ptr) ← lookRequests flags.request_flag capacity_request_number look_ptr
    let (m_and_c_message, look_ptr) ← lookIf flags.m_and_c_flag 2 look_ptr
    let m_and_c_message ← MAndCMessageValue.ofCode m_and_c_message
    let (group_id, look_ptr) ← lookIf flags.group_id_flag 1 look_ptr
    let (logon_id, look_ptr) ← lookIf flags.logon_id_flag 2 look_ptr
    let acm ← lookAcm (!flags.acm_flag) look_ptr
    .ok
      { flags := flags
        capacity_requests := capacity_requests
        capacity_request_number := capacity_request_number
        route_id := .ofNat route_id
        group_id := .ofNat group_id
        logon_id := .ofNat logon_id
        m_and_c_message := m_and_c_message
        acm := acm }

/-! ### What a message is for -/

/-- From one to eight requests, if there are any, whose channels fit into four bits. -/
structure InRange (s : SacMessage) : Prop where
  requests : s.flags.request_flag → 1 ≤ s.capacity_requests.length ∧ s.capacity_requests.length ≤ 8 ∧
    s.capacity_request_number.toNat + 1 = s.capacity_requests.length
  channels : ∀ r ∈ s.capacity_requests, r.channel_id ≤ 15

/-- The fields that are there are the same. -/
structure SameFields (s r : SacMessage) : Prop where
  flags : r.flags = s.flags
  capacity_requests : s.flags.request_flag → r.capacity_requests = s.capacity_requests ∧
    r.capacity_request_number = s.capacity_request_number
  m_and_c_message : s.flags.m_and_c_flag → r.m_and_c_message = s.m_and_c_message
  group_id : s.flags.group_id_flag → r.group_id = s.group_id
  logon_id : s.flags.logon_id_flag → r.logon_id = s.logon_id
  route_id : s.flags.route_id_flag = false → r.route_id = s.route_id
  acm : s.flags.acm_flag = false → r.acm = s.acm

/-- The message has the length that is declared, and the fields are read from it again when the reader is
    told `number`. -/
def Carried (s : SacMessage) (number : UInt8) : Prop :=
  ∃ length message r, s.sac_length = .ok length ∧ s.gen_sac_message = .ok (length, message) ∧
    message.length = length.toNat ∧ ofMessage message s.flags number = .ok r ∧ s.SameFields r

end SacMessage

end Dvb
