import Nctuns.Dvb.Section

/-!
# Terminal burst time plans

`tbtp_table.cc` and the part of `tbtp_section.cc` that `Section.lean` leaves open: frames with their
timeslot entries, packed as on the target machine. A new entry is not cleared, so an entry without a
channel has whatever `uninit` finds in its `channel_id`.
-/

namespace Dvb

open LittleEndian

/-- A range of slots for a terminal. -/
structure TbtpTimeslotInfo where
  logon_id : UInt16
  multiple_channels_flag : Bool
  assignment_type : BitVec 2
  vbdc_queue_empty_flag : Bool
  start_slot : BitVec 12
  deriving DecidableEq, Repr

/-- An entry of a frame: a range of slots, and how many there are. -/
structure TbtpTimeslotInfoEntry where
  timeslot_info : TbtpTimeslotInfo
  channel_id : UInt8
  assignment_count : UInt16
  deriving DecidableEq, Repr

/-- A frame: its number, and the number of its entries less one. -/
structure TbtpFrameInfo where
  frame_number : UInt8
  btp_loop_count : UInt16
  deriving DecidableEq, Repr

/-- A frame, `timeslots` from the head of its queue on. -/
structure TbtpFrameInfoEntry where
  frame_info : TbtpFrameInfo
  timeslots : List TbtpTimeslotInfoEntry
  deriving DecidableEq, Repr

/-- `_group_id` and `_superframe_count`. -/
structure TbtpGroup where
  _group_id : UInt8
  _superframe_count : UInt16
  deriving DecidableEq, Repr

/-- The terminal burst time plan: the frames of a group of terminals. -/
abbrev Tbtp := SiTable TbtpGroup TbtpFrameInfoEntry

/-- The frame gets a number of entries. -/
def TbtpFrameInfoEntry.set_btp_loop_count (f : TbtpFrameInfoEntry) (n : Int) : TbtpFrameInfoEntry :=
  { f with frame_info := { f.frame_info with btp_loop_count := UInt16.ofInt n } }

/-! ## Building a table -/

namespace Tbtp

/-- `Tbtp::Tbtp`. -/
def new (network_id : UInt16) (version_number current_next_indicator : UInt8)
    (superframe_count : UInt16) (group_id : UInt8) : Tbtp where
  network_id := network_id
  version_number := version_number
  current_next_indicator := current_next_indicator
  more := ⟨group_id, superframe_count⟩
  loop_count := 0
  entries := []

/-- The frame has the number. -/
def isNumber (frame_number : UInt8) (f : TbtpFrameInfoEntry) : Bool :=
  f.frame_info.frame_number == frame_number

/-- `Tbtp::add_frame_info`: no change if the frame is there. -/
def add_frame_info (t : Tbtp) (frame_info : TbtpFrameInfo) (e : TbtpTimeslotInfoEntry) : Tbtp :=
  if t.entries.any (isNumber frame_info.frame_number) then t
  else
    { t with
      loop_count := (t.loop_count + 1) % 256
      entries := { frame_info := { frame_info with btp_loop_count := 1 }, timeslots := [e] } ::
        t.entries }

/-- The `char` in which the loop count is increased and decreased. -/
def loopChar (f : TbtpFrameInfoEntry) : Int8 := f.frame_info.btp_loop_count.toUInt8.toInt8

/-- An entry added to a frame. -/
def addTo (e : TbtpTimeslotInfoEntry) (f : TbtpFrameInfoEntry) : TbtpFrameInfoEntry :=
  { f with timeslots := e :: f.timeslots }.set_btp_loop_count (loopChar f + 1).toInt

/-- The first entry of a terminal taken out of a frame. -/
def removeFrom (logon_id : UInt16) (f : TbtpFrameInfoEntry) : TbtpFrameInfoEntry :=
  let isOf := fun e : TbtpTimeslotInfoEntry => e.timeslot_info.logon_id == logon_id
  if f.timeslots.any isOf then
    { f with timeslots := f.timeslots.eraseP isOf }.set_btp_loop_count (loopChar f - 1).toInt
  else f

/-- `Tbtp::add_timeslot_info`: no change if there is no such frame. -/
def add_timeslot_info (t : Tbtp) (frame_number : UInt8) (e : TbtpTimeslotInfoEntry) : Tbtp :=
  { t with entries := modifyFirst (isNumber frame_number) (addTo e) t.entries }

/-- `Tbtp::remove_timeslot_info`. -/
def remove_timeslot_info (t : Tbtp) (frame_number : UInt8) (logon_id : UInt16) : Tbtp :=
  { t with entries := modifyFirst (isNumber frame_number) (removeFrom logon_id) t.entries }

/-- `Tbtp::remove_frame_info`. -/
def remove_frame_info (t : Tbtp) (frame_number : UInt8) : Tbtp :=
  { t with entries := t.entries.eraseP (isNumber frame_number) }

end Tbtp

/-! ## Bytes -/

/-- The bit fields behind `logon_id`, the first one in the lowest bit. -/
def TbtpTimeslotInfo.bits (s : TbtpTimeslotInfo) : Nat :=
  s.multiple_channels_flag.toNat + 2 * s.assignment_type.toNat +
    8 * s.vbdc_queue_empty_flag.toNat + 16 * s.start_slot.toNat

/-- A range of slots as it is read from its two words. -/
def TbtpTimeslotInfo.ofBits (logon_id bits : Nat) : TbtpTimeslotInfo where
  logon_id := UInt16.ofNat logon_id
  multiple_channels_flag := decide (bits % 2 = 1)
  assignment_type := BitVec.ofNat 2 (bits / 2)
  vbdc_queue_empty_flag := decide (bits / 8 % 2 = 1)
  start_slot := BitVec.ofNat 12 (bits / 16)

namespace TbtpTimeslotInfoEntry

/-- `timeslot_info_len`. -/
def timeslot_info_len (e : TbtpTimeslotInfoEntry) : Nat :=
  e.timeslot_info.multiple_channels_flag.toNat + 4 + 2

/-- What `tbtp_table_to_section` copies: `channel_id` only of an entry with the flag. -/
def put (e : TbtpTimeslotInfoEntry) : List UInt8 :=
  bytes 2 e.timeslot_info.logon_id.toNat ++ bytes 2 e.timeslot_info.bits ++
    (if e.timeslot_info.multiple_channels_flag then bytes 1 e.channel_id.toNat else []) ++
    bytes 2 e.assignment_count.toNat

/-- The round of `to_table` for an entry. -/
def get (uninit : List UInt8 → UInt8) (l : List UInt8) :
    Except SectionHalt (TbtpTimeslotInfoEntry × List UInt8) := do
  let (logon_id, l) ← word 2 l
  let (bits, l) ← word 2 l
  let info := TbtpTimeslotInfo.ofBits logon_id bits
  let (channel_id, l) ← if info.multiple_channels_flag then word 1 l else .ok ((uninit l).toNat, l)
  let (assignment_count, l) ← word 2 l
  .ok (⟨info, UInt8.ofNat channel_id, UInt16.ofNat assignment_count⟩, l)

end TbtpTimeslotInfoEntry

namespace TbtpFrameInfoEntry

/-- `frame_info_len`. -/
def frame_info_len (f : TbtpFrameInfoEntry) : UInt32 :=
  UInt32.ofNat (3 + (f.timeslots.map (·.timeslot_info_len)).sum)

/-- What `tbtp_table_to_section` copies: in a section a loop count of zero means one entry. -/
def put (f : TbtpFrameInfoEntry) : List UInt8 :=
  let count := f.frame_info.btp_loop_count
  let count := if count ≠ 0 then count - 1 else count
  bytes 1 f.frame_info.frame_number.toNat ++ bytes 2 count.toNat ++ f.timeslots.flatMap (·.put)

/-- The loop of `to_table` over `n` entries. -/
def getTimeslots (uninit : List UInt8 → UInt8) : Nat → List TbtpTimeslotInfoEntry → List UInt8 →
    Except SectionHalt (List TbtpTimeslotInfoEntry × List UInt8)
  | 0, q, l => .ok (q, l)
  | n + 1, q, l => do
    let (e, l) ← TbtpTimeslotInfoEntry.get uninit l
    getTimeslots uninit n (e :: q) l

/-- The round of `to_table` for a frame. The number of entries is cut to a `u_char`. -/
def get (uninit : List UInt8 → UInt8) (l : List UInt8) :
    Except SectionHalt (TbtpFrameInfoEntry × List UInt8) := do
  let (frame_number, l) ← word 1 l
  let (count, l) ← word 2 l
  let _btp_loop_count := UInt8.ofNat count
  let (timeslots, l) ← getTimeslots uninit (_btp_loop_count.toNat + 1) [] l
  .ok (⟨⟨UInt8.ofNat frame_number, UInt16.ofNat count + 1⟩, timeslots⟩, l)

end TbtpFrameInfoEntry

/-- How the plan is cut into sections. -/
def tbtpFormat (uninit : List UInt8 → UInt8) : TableFormat TbtpFrameInfoEntry where
  DRAFT_SIZE := 12
  info_len := TbtpFrameInfoEntry.frame_info_len
  put := TbtpFrameInfoEntry.put
  get := TbtpFrameInfoEntry.get uninit
  partial_header := 9
  loop_count_limit := 256

/-! ## What a plan says -/

/-- An entry without a `channel_id` that nobody reads. -/
def TbtpTimeslotInfoEntry.grant (e : TbtpTimeslotInfoEntry) :
    TbtpTimeslotInfo × Option UInt8 × UInt16 :=
  (e.timeslot_info,
    if e.timeslot_info.multiple_channels_flag then some e.channel_id else none, e.assignment_count)

/-- The loop counts are the numbers of entries, in the eight bits that a `char` has. -/
def Tbtp.Counted (t : Tbtp) : Prop :=
  ∀ f ∈ t.entries, f.frame_info.btp_loop_count.toNat % 256 = f.timeslots.length % 256

/-- The frames, each with its entries in the order of its queue. -/
def Tbtp.plan (t : Tbtp) : List (TbtpFrameInfo × List (TbtpTimeslotInfo × Option UInt8 × UInt16)) :=
  t.entries.map fun f => (f.frame_info, f.timeslots.map (·.grant))

end Dvb
