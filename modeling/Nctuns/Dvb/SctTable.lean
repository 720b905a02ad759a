import Mathlib.Data.Multiset.MapFold
import Nctuns.Dvb.Section

/-!
# Superframe composition tables

`sct_table.cc` and the part of `sct_section.cc` that `Section.lean` leaves open: superframes with
their frames, packed as on the target machine. `char` is signed, so a loop count is the number of
frames up to 127 of them.
-/

namespace Dvb

open LittleEndian

/-- A frame of a superframe. -/
structure SctFrameInfo where
  frame_id : UInt8
  frame_start_time : UInt32
  frame_centre_frequency_offset : BitVec 24
  deriving DecidableEq, Repr

/-- A frame with its number. -/
structure SctFrameInfoEntry where
  frame_info : SctFrameInfo
  frame_number : UInt8
  deriving DecidableEq, Repr

/-- A superframe: its times and its frequency, and the number of its frames less one. -/
structure SctSuperframeInfo where
  superframe_id : UInt8
  uplink_polarization : UInt8
  start_time_base_ext : BitVec 48
  superframe_duration : UInt32
  superframe_centre_frequency : UInt32
  superframe_counter : UInt16
  frame_loop_count : UInt8
  deriving DecidableEq, Repr

/-- A superframe, `frames` from the head of its queue on. -/
structure SctSuperframeInfoEntry where
  superframe_info : SctSuperframeInfo
  frames : List SctFrameInfoEntry
  deriving DecidableEq, Repr

/-- The superframe composition table. -/
abbrev Sct := SiTable Unit SctSuperframeInfoEntry

namespace SctSuperframeInfoEntry

/-- `get_frame_loop_count` as the `char` that it returns. -/
def get_frame_loop_count (e : SctSuperframeInfoEntry) : Int :=
  e.superframe_info.frame_loop_count.toInt8.toInt

/-- The superframe gets a number of frames. -/
def set_frame_loop_count (e : SctSuperframeInfoEntry) (n : Int) : SctSuperframeInfoEntry :=
  { e with superframe_info := { e.superframe_info with frame_loop_count := UInt8.ofInt n } }

/-- The comparison of a `u_char` with the `char` of `get_superframe_id`, and of the counters. -/
def isKey (e : SctSuperframeInfoEntry) (superframe_id : UInt8) (superframe_counter : UInt16) : Bool :=
  decide ((superframe_id.toNat : Int) = e.superframe_info.superframe_id.toInt8.toInt) &&
    superframe_counter == e.superframe_info.superframe_counter

end SctSuperframeInfoEntry

/-! ## Building a table -/

namespace Sct

/-- `Sct::Sct`. -/
def new (network_id : UInt16) (version_number current_next_indicator : UInt8) : Sct where
  network_id := network_id
  version_number := version_number
  current_next_indicator := current_next_indicator
  more := ()
  loop_count := 0
  entries := []

/-- `Sct::add_superframe_info`: no change if the superframe is there. -/
def add_superframe_info (t : Sct) (superframe_info : SctSuperframeInfo) (frame_info : SctFrameInfo) :
    Sct :=
  if t.entries.any (·.isKey superframe_info.superframe_id superframe_info.superframe_counter) then t
  else
    { t with
      loop_count := (t.loop_count + 1) % 2 ^ 32
      entries :=
        { superframe_info := { superframe_info with frame_loop_count := 1 }
          frames := [⟨frame_info, 0⟩] } :: t.entries }

/-- The comparison of a `u_char` with a `char`. -/
def isNumber (frame_number : UInt8) (f : SctFrameInfoEntry) : Bool :=
  decide ((frame_number.toNat : Int) = f.frame_number.toInt8.toInt)

/-- The frame added to a superframe, unless its number is there. -/
def addTo (frame_info : SctFrameInfo) (frame_number : UInt8) (e : SctSuperframeInfoEntry) :
    SctSuperframeInfoEntry :=
  if e.frames.any (isNumber frame_number) then e
  else { e with frames := ⟨frame_info, frame_number⟩ :: e.frames }.set_frame_loop_count
    (e.get_frame_loop_count + 1)

/-- `Sct::add_frame_info`: no change if there is no such superframe or it has the number. -/
def add_frame_info (t : Sct) (superframe_id : UInt8) (superframe_counter : UInt16)
    (frame_info : SctFrameInfo) (frame_number : UInt8) : Sct :=
  { t with
    entries :=
      modifyFirst (·.isKey superframe_id superframe_counter) (addTo frame_info frame_number)
        t.entries }

end Sct

/-! ## Bytes -/

/-- A frame as bytes. -/
def SctFrameInfo.put (f : SctFrameInfo) : List UInt8 :=
  bytes 1 f.frame_id.toNat ++ bytes 4 f.frame_start_time.toNat ++
    bytes 3 f.frame_centre_frequency_offset.toNat

/-- A frame from the bytes at hand. -/
def SctFrameInfo.get (l : List UInt8) : Except SectionHalt (SctFrameInfo × List UInt8) := do
  let (frame_id, l) ← word 1 l
  let (frame_start_time, l) ← word 4 l
  let (offset, l) ← word 3 l
  .ok
    ({ frame_id := UInt8.ofNat frame_id
       frame_start_time := UInt32.ofNat frame_start_time
       frame_centre_frequency_offset := BitVec.ofNat 24 offset }, l)

/-- A superframe without its frames as bytes. -/
def SctSuperframeInfo.put (s : SctSuperframeInfo) : List UInt8 :=
  bytes 1 s.superframe_id.toNat ++ bytes 1 s.uplink_polarization.toNat ++
    bytes 6 s.start_time_base_ext.toNat ++ bytes 4 s.superframe_duration.toNat ++
    bytes 4 s.superframe_centre_frequency.toNat ++ bytes 2 s.superframe_counter.toNat ++
    bytes 1 s.frame_loop_count.toNat

/-- A superframe without its frames from the bytes at hand. -/
def SctSuperframeInfo.get (l : List UInt8) : Except SectionHalt (SctSuperframeInfo × List UInt8) := do
  let (superframe_id, l) ← word 1 l
  let (uplink_polarization, l) ← word 1 l
  let (start_time_base_ext, l) ← word 6 l
  let (superframe_duration, l) ← word 4 l
  let (superframe_centre_frequency, l) ← word 4 l
  let (superframe_counter, l) ← word 2 l
  let (frame_loop_count, l) ← word 1 l
  .ok
    ({ superframe_id := UInt8.ofNat superframe_id
       uplink_polarization := UInt8.ofNat uplink_polarization
       start_time_base_ext := BitVec.ofNat 48 start_time_base_ext
       superframe_duration := UInt32.ofNat superframe_duration
       superframe_centre_frequency := UInt32.ofNat superframe_centre_frequency
       superframe_counter := UInt16.ofNat superframe_counter
       frame_loop_count := UInt8.ofNat frame_loop_count }, l)

namespace SctSuperframeInfoEntry

/-- `superframe_info_len`, in the 64 bits of a `size_t` and then cut to 32. -/
def superframe_info_len (e : SctSuperframeInfoEntry) : UInt32 :=
  UInt32.ofInt (19 + 8 * e.get_frame_loop_count)

/-- What `sct_table_to_section` copies: in a section a loop count of zero means one frame. -/
def put (e : SctSuperframeInfoEntry) : List UInt8 :=
  let e := if e.get_frame_loop_count ≠ 0 then e.set_frame_loop_count (e.get_frame_loop_count - 1)
    else e
  e.superframe_info.put ++ e.frames.flatMap fun f => f.frame_info.put

/-- The loop of `to_table` over the last `n` of the frames, which are numbered downwards. -/
def getFrames : Nat → List SctFrameInfoEntry → List UInt8 →
    Except SectionHalt (List SctFrameInfoEntry × List UInt8)
  | 0, q, l => .ok (q, l)
  | n + 1, q, l => do
    let (frame_info, l) ← SctFrameInfo.get l
    getFrames n (⟨frame_info, UInt8.ofNat n⟩ :: q) l

/-- A superframe with its frames from the bytes at hand. -/
def get (l : List UInt8) : Except SectionHalt (SctSuperframeInfoEntry × List UInt8) := do
  let (superframe_info, l) ← SctSuperframeInfo.get l
  let (frames, l) ← getFrames (superframe_info.frame_loop_count.toNat + 1) [] l
  let e : SctSuperframeInfoEntry := ⟨superframe_info, frames⟩
  .ok (e.set_frame_loop_count (e.get_frame_loop_count + 1), l)

end SctSuperframeInfoEntry

/-- How the table is cut into sections. -/
def sctFormat : TableFormat SctSuperframeInfoEntry where
  DRAFT_SIZE := 9
  info_len := SctSuperframeInfoEntry.superframe_info_len
  put := SctSuperframeInfoEntry.put
  get := SctSuperframeInfoEntry.get
  partial_header := 6
  loop_count_limit := 2 ^ 32

/-! ## What a table has -/

/-- Frames numbered downwards along their queue. -/
def renumber : List SctFrameInfoEntry → List SctFrameInfoEntry
  | [] => []
  | f :: fs => ⟨f.frame_info, UInt8.ofNat fs.length⟩ :: renumber fs

/-- The frames of every superframe have the numbers that go downwards along their queue. -/
def Sct.NumberedDown (t : Sct) : Prop := ∀ e ∈ t.entries, (renumber e.frames).Perm e.frames

/-- The superframes with their frames, without their order in the queues. -/
def Sct.contents (t : Sct) : Multiset (SctSuperframeInfo × Multiset SctFrameInfoEntry) :=
  (t.entries.map fun e => (e.superframe_info, (e.frames : Multiset SctFrameInfoEntry)) : List _)

/-- Every superframe has frames and their number as its loop count, and no two superframes have the
    same id and counter. -/
structure Sct.WellFormed (t : Sct) : Prop where
  loop_count : ∀ e ∈ t.entries, e.get_frame_loop_count = e.frames.length
  frames : ∀ e ∈ t.entries, e.frames ≠ []
  keys : (t.entries.map fun e =>
    (e.superframe_info.superframe_id, e.superframe_info.superframe_counter)).Nodup

end Dvb
