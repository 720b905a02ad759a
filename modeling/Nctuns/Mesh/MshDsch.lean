import Nctuns.Lib.Records
import Nctuns.Mesh.Bitmap

/-!
# The distributed scheduling message

`msh_dsch.cc`: a message is a set of counters and arrays, `copyTo` writes the part of the arrays that the
counters tell, and the constructor from a buffer reads the arrays behind each other. Bit fields begin with the
low bits of a byte, and one that does not fit into the byte begins the next. The arrays of a new message hold
what was in the memory, and so does the counter of the neighbours.
-/

namespace Mesh

open Records

/-- A byte of the message. -/
abbrev Byte := BitVec 8

/-! ## The structures and their bytes -/

/-- The fixed fields of the message, with the numbers of its elements. -/
structure MSH_DSCH_field where
  CoordFlag : BitVec 1
  GrantFlag : BitVec 1
  SeqCounter : BitVec 6
  NRequest : BitVec 4
  NAvail : BitVec 4
  NGrant : BitVec 6
  reserve : BitVec 2
  deriving DecidableEq, Repr

/-- A neighbour: its number, and when it sends next. -/
structure DSCH_SchedEntry where
  msbNbrNodeID : BitVec 8
  lsbNbrNodeID : BitVec 8
  NextXmtMx : BitVec 5
  XmtHoldExp : BitVec 3
  deriving DecidableEq, Repr

/-- When the sender itself sends next, and the number of neighbours. -/
structure DSCH_SchedulingIE_field where
  NextXmtMx : BitVec 5
  XmtHoldExp : BitVec 3
  NSchedEntry : BitVec 8
  deriving DecidableEq, Repr

/-- A demand on a link. -/
structure DSCH_RequestIE where
  LinkID : BitVec 8
  DemandLevel : BitVec 8
  DemandPersist : BitVec 3
  reserve : BitVec 1
  deriving DecidableEq, Repr

/-- Minislots that are free. -/
structure DSCH_AvailabilityIE where
  StartNumber : BitVec 8
  SlotStart : BitVec 8
  SlotRange : BitVec 7
  Direction : BitVec 2
  Persistence : BitVec 3
  Channel : BitVec 4
  deriving DecidableEq, Repr

/-- Minislots that are given, or confirmed by the other end. -/
structure DSCH_GrantIE where
  LinkID : BitVec 8
  StartNumber : BitVec 8
  SlotStart : BitVec 8
  SlotRange : BitVec 8
  Direction : BitVec 1
  Persistence : BitVec 3
  Channel : BitVec 4
  deriving DecidableEq, Repr

/-- The `len` bits of the byte `i` from the bit `start` on. -/
def bits (l : List Byte) (i start len : ℕ) : BitVec len := (l.getD i 0).extractLsb' start len

theorem bits_cons_zero (x : Byte) (l : List Byte) (start len : ℕ) :
    bits (x :: l) 0 start len = x.extractLsb' start len := rfl

theorem bits_cons_succ (x : Byte) (l : List Byte) (i start len : ℕ) :
    bits (x :: l) (i + 1) start len = bits l i start len := rfl

theorem extract_low {m n : ℕ} (x : BitVec m) (y : BitVec n) : (x ++ y).extractLsb' 0 n = y :=
  BitVec.extractLsb'_append_eq_right

theorem extract_high {m n : ℕ} (x : BitVec m) (y : BitVec n) : (x ++ y).extractLsb' n m = x :=
  BitVec.extractLsb'_append_eq_left

/-- The middle one of three bit fields. -/
theorem extract_mid {k m n : ℕ} (x : BitVec k) (y : BitVec m) (z : BitVec n) :
    (x ++ y ++ z).extractLsb' n m = y := by
  rw [BitVec.extractLsb'_append_eq_of_le (Nat.le_refl n), Nat.sub_self]
  exact extract_low x y

theorem extract_top {k m n s : ℕ} (x : BitVec k) (y : BitVec m) (z : BitVec n) (hs : s = m + n) :
    (x ++ y ++ z).extractLsb' s k = x := by
  subst hs
  rw [BitVec.extractLsb'_append_eq_of_le (Nat.le_add_left n m), Nat.add_sub_cancel]
  exact extract_high x y

theorem extract_all (x : BitVec 8) : x.extractLsb' 0 8 = x := BitVec.extractLsb'_eq_self

/-- A structure is read back from its bytes field by field. -/
def fieldCodec : Codec MSH_DSCH_field Byte where
  size := 3
  put x := [x.SeqCounter ++ x.GrantFlag ++ x.CoordFlag, x.NAvail ++ x.NRequest, x.reserve ++ x.NGrant]
  get l := ⟨bits l 0 0 1, bits l 0 1 1, bits l 0 2 6, bits l 1 0 4, bits l 1 4 4, bits l 2 0 6, bits l 2 6 2⟩
  length_put _ := rfl
  get_put x rest := by
    simp only [List.cons_append, bits_cons_zero, bits_cons_succ, extract_mid, extract_low, extract_high]
    rw [extract_top x.SeqCounter x.GrantFlag x.CoordFlag rfl]

/-- A neighbour takes three bytes. -/
def entryCodec : Codec DSCH_SchedEntry Byte where
  size := 3
  put x := [x.msbNbrNodeID, x.lsbNbrNodeID, x.XmtHoldExp ++ x.NextXmtMx]
  get l := ⟨bits l 0 0 8, bits l 1 0 8, bits l 2 0 5, bits l 2 5 3⟩
  length_put _ := rfl
  get_put x rest := by
    simp only [List.cons_append, bits_cons_zero, bits_cons_succ, extract_low, extract_high, extract_all]

/-- The scheduling fields take two bytes. -/
def schedulingCodec : Codec DSCH_SchedulingIE_field Byte where
  size := 2
  put x := [x.XmtHoldExp ++ x.NextXmtMx, x.NSchedEntry]
  get l := ⟨bits l 0 0 5, bits l 0 5 3, bits l 1 0 8⟩
  length_put _ := rfl
  get_put x rest := by
    simp only [List.cons_append, bits_cons_zero, bits_cons_succ, extract_low, extract_high, extract_all]

/-- A request takes three bytes. -/
def requestCodec : Codec DSCH_RequestIE Byte where
  size := 3
  put x := [x.LinkID, x.DemandLevel, 0#4 ++ x.reserve ++ x.DemandPersist]
  get l := ⟨bits l 0 0 8, bits l 1 0 8, bits l 2 0 3, bits l 2 3 1⟩
  length_put _ := rfl
  get_put x rest := by
    simp only [List.cons_append, bits_cons_zero, bits_cons_succ, extract_low, extract_mid, extract_all]

/-- An availability takes five bytes. -/
def availabilityCodec : Codec DSCH_AvailabilityIE Byte where
  size := 5
  put x := [x.StartNumber, x.SlotStart, 0#1 ++ x.SlotRange, 0#3 ++ x.Persistence ++ x.Direction,
    0#4 ++ x.Channel]
  get l := ⟨bits l 0 0 8, bits l 1 0 8, bits l 2 0 7, bits l 3 0 2, bits l 3 2 3, bits l 4 0 4⟩
  length_put _ := rfl
  get_put x rest := by
    simp only [List.cons_append, bits_cons_zero, bits_cons_succ, extract_low, extract_mid, extract_all]

/-- A grant takes five bytes. -/
def grantCodec : Codec DSCH_GrantIE Byte where
  size := 5
  put x := [x.LinkID, x.StartNumber, x.SlotStart, x.SlotRange, x.Channel ++ x.Persistence ++ x.Direction]
  get l := ⟨bits l 0 0 8, bits l 1 0 8, bits l 2 0 8, bits l 3 0 8, bits l 4 0 1, bits l 4 1 3, bits l 4 4 4⟩
  length_put _ := rfl
  get_put x rest := by
    simp only [List.cons_append, bits_cons_zero, bits_cons_succ, extract_low, extract_mid, extract_all]
    rw [extract_top x.Channel x.Persistence x.Direction rfl]

/-! ## The message -/

/-- The message: its fields, and the arrays of its elements. -/
structure MSH_DSCH where
  type : Byte
  f : MSH_DSCH_field
  Scheduling_f : DSCH_SchedulingIE_field
  Scheduling_entry : ℕ → DSCH_SchedEntry
  Availability : ℕ → DSCH_AvailabilityIE
  Request : ℕ → DSCH_RequestIE
  Grant : ℕ → DSCH_GrantIE

/-- The requests for which the message has room. -/
def NF_REQUEST_IE_MAX : ℕ := 16
/-- The availabilities for which the message has room. -/
def NF_AVAILABILITY_IE_MAX : ℕ := 16
/-- The grants and confirmations for which the message has room. -/
def NF_GRANT_IE_MAX : ℕ := 63

/-- The direction of a confirmation. -/
def DIRECTION_FROM_REQUEST : BitVec 1 := 0
/-- The direction of a grant. -/
def DIRECTION_TO_REQUEST : BitVec 1 := 1

/-- An allocation with its link (`schedule_alloc_t`). -/
structure Alloc extends Alloc_base where
  link_id : BitVec 8
  deriving DecidableEq, Repr

/-- `Ctrl_sch::Entry`, as far as a message carries it. -/
structure Entry where
  _node_id : BitVec 16
  _next_tx_mx : BitVec 5
  _tx_holdoff_exp : BitVec 3
  deriving DecidableEq, Repr

/-- The accessor returns an `uint8_t`. -/
def Entry.node_id (e : Entry) : BitVec 8 := e._node_id.setWidth 8

/-- The frames that a persistence code stands for. -/
def persistence2frame (persistence : BitVec 3) : BitVec 8 :=
  match persistence with
  | 0#3 => 0
  | 1#3 => 1
  | 2#3 => 2
  | 3#3 => 4
  | 4#3 => 8
  | 5#3 => 32
  | 6#3 => 128
  | 7#3 => 0xff

/-- `_frame2persistence`; `none` is `FATAL`. -/
def frame2persistence (frame : BitVec 8) : Option (BitVec 3) :=
  if frame = 0 then some 0
  else if frame = 1 then some 1
  else if frame = 2 then some 2
  else if frame = 4 then some 3
  else if frame = 8 then some 4
  else if frame = 32 then some 5
  else if frame = 128 then some 6
  else if frame = 0xff then some 7
  else none

/-- `_frame_sync`, for the 16-bit frame number `cur_frame`. -/
def frame_sync (unsync_frame : BitVec 8) (cur_frame : BitVec 16) : ℕ :=
  let sync_frame := cur_frame.toNat / 256 * 256 + unsync_frame.toNat
  if (sync_frame + 65536 - cur_frame.toNat) % 4096 ≥ FRAME_START_MAX then (sync_frame + FRAME_START_MAX) % 4096
  else sync_frame

namespace MSH_DSCH

variable (m : MSH_DSCH)

/-! ### Adding items -/

/-- `_encapsulate_availability`; `none` if the item is refused. -/
def encapsulate_availability (avail : Alloc_base) : Option MSH_DSCH := do
  let i := m.f.NAvail.toNat
  if i ≥ NF_AVAILABILITY_IE_MAX then none
  else
    let persistence ← frame2persistence avail.frame_range
    some { m with
      f := { m.f with NAvail := m.f.NAvail + 1 }
      Availability := Function.update m.Availability i { m.Availability i with
        StartNumber := avail.frame_start.setWidth 8
        SlotStart := avail.slot_start
        SlotRange := avail.slot_range.setWidth 7
        Persistence := persistence } }

/-- A request is added, if there is room and its range has a code. -/
def encapsulate_request (request : Alloc) : Option MSH_DSCH := do
  let i := m.f.NRequest.toNat
  if i ≥ NF_REQUEST_IE_MAX then none
  else
    let persistence ← frame2persistence request.frame_range
    some { m with
      f := { m.f with NRequest := m.f.NRequest + 1 }
      Request := Function.update m.Request i { m.Request i with
        LinkID := request.link_id
        DemandLevel := request.slot_range
        DemandPersist := persistence } }

/-- A grant is added, if there is room and its range has a code. -/
def encapsulate_grant (grant : Alloc) : Option MSH_DSCH := do
  let i := m.f.NGrant.toNat
  if i ≥ NF_GRANT_IE_MAX then none
  else
    let persistence ← frame2persistence grant.frame_range
    some { m with
      f := { m.f with NGrant := m.f.NGrant + 1 }
      Grant := Function.update m.Grant i { m.Grant i with
        LinkID := grant.link_id
        StartNumber := grant.frame_start.setWidth 8
        SlotStart := grant.slot_start
        SlotRange := grant.slot_range
        Direction := DIRECTION_TO_REQUEST
        Persistence := persistence } }

/-- A confirmation is a grant in the other direction. -/
def encapsulate_confirm (confirm : Alloc) : Option MSH_DSCH := do
  let i := m.f.NGrant.toNat
  if i ≥ NF_GRANT_IE_MAX then none
  else
    let m ← m.encapsulate_grant confirm
    some { m with Grant := Function.update m.Grant i { m.Grant i with Direction := DIRECTION_FROM_REQUEST } }

/-- A neighbour is added, if there is room. -/
def add_nbr_sch_entry (entry : Entry) : Option MSH_DSCH :=
  let i := m.Scheduling_f.NSchedEntry.toNat
  if i ≥ 255 then none
  else
    some { m with
      Scheduling_f := { m.Scheduling_f with NSchedEntry := m.Scheduling_f.NSchedEntry + 1 }
      Scheduling_entry := Function.update m.Scheduling_entry i
        ⟨entry.node_id >>> 8, entry.node_id &&& 0xff, entry._next_tx_mx, entry._tx_holdoff_exp⟩ }

/-! ### Writing and reading the bytes -/

/-- The message as bytes. -/
def copyTo : List Byte :=
  [m.type] ++ (fieldCodec.put m.f ++
    ((if m.f.CoordFlag = 0 then
        schedulingCodec.put m.Scheduling_f ++
          putAll entryCodec m.Scheduling_entry m.Scheduling_f.NSchedEntry.toNat
      else []) ++
    (putAll requestCodec m.Request m.f.NRequest.toNat ++
    (putAll availabilityCodec m.Availability m.f.NAvail.toNat ++
    putAll grantCodec m.Grant m.f.NGrant.toNat))))

/-- The length of the message. -/
def getLen : ℕ :=
  let len := fieldCodec.size + 1
  let len := if m.f.CoordFlag = 0 then
      len + schedulingCodec.size + m.Scheduling_f.NSchedEntry.toNat * entryCodec.size
    else len
  len + m.f.NRequest.toNat * requestCodec.size + m.f.NAvail.toNat * availabilityCodec.size +
    m.f.NGrant.toNat * grantCodec.size

/-- The constructor from a buffer. -/
def parse (pBuffer : List Byte) : MSH_DSCH :=
  let pos := 1 + fieldCodec.size
  let f := fieldCodec.get (pBuffer.drop 1)
  let scheduling := schedulingCodec.get (pBuffer.drop pos)
  let posEntry := pos + schedulingCodec.size
  let posRequest := if f.CoordFlag = 0 then posEntry + scheduling.NSchedEntry.toNat * entryCodec.size else pos
  let posAvail := posRequest + f.NRequest.toNat * requestCodec.size
  let posGrant := posAvail + f.NAvail.toNat * availabilityCodec.size
  { type := pBuffer.getD 0 0
    f
    Scheduling_f := scheduling
    Scheduling_entry := getAt entryCodec pBuffer posEntry
    Request := getAt requestCodec pBuffer posRequest
    Availability := getAt availabilityCodec pBuffer posAvail
    Grant := getAt grantCodec pBuffer posGrant }

/-! ### Getting items -/

/-- The link of an availability stays `LINK_ID_ALL`. -/
def get_availability_info (idx : ℕ) (cur_frame : BitVec 16) : Option Alloc_base :=
  if idx ≥ m.f.NAvail.toNat then none
  else
    let a := m.Availability idx
    some ⟨BitVec.ofNat 12 (frame_sync a.StartNumber cur_frame), persistence2frame a.Persistence, a.SlotStart,
      a.SlotRange.setWidth 8⟩

/-- A request as it is read back. -/
def get_request_info (idx : ℕ) : Option Alloc :=
  if idx ≥ m.f.NRequest.toNat then none
  else
    let r := m.Request idx
    some { frame_start := 0, frame_range := persistence2frame r.DemandPersist, slot_start := 0,
           slot_range := r.DemandLevel, link_id := r.LinkID }

/-- The grants, or the confirms, in the array. -/
def directed (direction : BitVec 1) : List DSCH_GrantIE :=
  ((List.range m.f.NGrant.toNat).map m.Grant).filter fun g => g.Direction = direction

/-- The grants of the message. -/
def getNumGrant : ℕ := (m.directed DIRECTION_TO_REQUEST).length

/-- The confirmations: what is not a grant. -/
def getNumConfirm : ℕ := m.f.NGrant.toNat - m.getNumGrant

/-- The loop of `get_grant_info` and `get_confirm_info`: the place of the `idx`-th one. -/
def find (direction : BitVec 1) : ℕ → ℕ → ℕ → ℕ
  | 0, i, _ => i
  | k + 1, i, idx =>
    if (m.Grant i).Direction = direction then
      match idx with
      | 0 => i
      | idx + 1 => find direction k (i + 1) idx
    else find direction k (i + 1) idx

/-- The allocation of a grant or confirm. -/
def alloc_of (g : DSCH_GrantIE) (cur_frame : BitVec 16) : Alloc where
  frame_start := BitVec.ofNat 12 (frame_sync g.StartNumber cur_frame)
  frame_range := persistence2frame g.Persistence
  slot_start := g.SlotStart
  slot_range := g.SlotRange
  link_id := g.LinkID

/-- A grant as it is read back. -/
def get_grant_info (idx : ℕ) (cur_frame : BitVec 16) : Option Alloc :=
  if idx ≥ m.getNumGrant then none
  else some (alloc_of (m.Grant (m.find DIRECTION_TO_REQUEST m.f.NGrant.toNat 0 idx)) cur_frame)

/-- A confirmation as it is read back. -/
def get_confirm_info (idx : ℕ) (cur_frame : BitVec 16) : Option Alloc :=
  if idx ≥ m.getNumConfirm then none
  else some (alloc_of (m.Grant (m.find DIRECTION_FROM_REQUEST m.f.NGrant.toNat 0 idx)) cur_frame)

/-- `get_nbr_sch_entry`; `none` is a failed assertion. -/
def get_nbr_sch_entry (idx : ℕ) : Option Entry :=
  if idx < m.Scheduling_f.NSchedEntry.toNat then
    let e := m.Scheduling_entry idx
    some ⟨(e.msbNbrNodeID.setWidth 16 <<< 8) + e.lsbNbrNodeID.setWidth 16, e.NextXmtMx, e.XmtHoldExp⟩
  else none

/-! ## Filling a message -/

/-- A new message over the given memory: only `f` is cleared. -/
def fresh (memory : MSH_DSCH) : MSH_DSCH := { memory with type := 41, f := ⟨0, 0, 0, 0, 0, 0, 0⟩ }

/-- What can be added to the message. -/
inductive Op where
  | availability (a : Alloc_base)
  | request (a : Alloc)
  | grant (a : Alloc)
  | confirm (a : Alloc)
  | nbr (e : Entry)
  deriving DecidableEq, Repr

/-- One element is added. -/
def add (m : MSH_DSCH) : Op → Option MSH_DSCH
  | .availability a => m.encapsulate_availability a
  | .request a => m.encapsulate_request a
  | .grant a => m.encapsulate_grant a
  | .confirm a => m.encapsulate_confirm a
  | .nbr e => m.add_nbr_sch_entry e

/-- All items are added, and none is refused. -/
def addAll (m : MSH_DSCH) : List Op → Option MSH_DSCH
  | [] => some m
  | op :: ops => do (← m.add op).addAll ops

/-! ### What the items are -/

/-- The availabilities among the elements. -/
def availabilities (ops : List Op) : List Alloc_base :=
  ops.filterMap fun | .availability a => some a | _ => none

/-- A request asks for an amount: it has no place. -/
def requests (ops : List Op) : List Alloc :=
  ops.filterMap fun | .request a => some { a with frame_start := 0, slot_start := 0 } | _ => none

/-- The grants among the elements. -/
def grants (ops : List Op) : List Alloc :=
  ops.filterMap fun | .grant a => some a | _ => none

/-- The confirmations among the elements. -/
def confirms (ops : List Op) : List Alloc :=
  ops.filterMap fun | .confirm a => some a | _ => none

/-- The neighbours among the elements. -/
def nbrs (ops : List Op) : List Entry :=
  ops.filterMap fun | .nbr e => some e | _ => none

/-- The frame begins within 255 frames of the current one. -/
def Near (cur_frame : BitVec 16) (a : Alloc_base) : Prop :=
  (a.frame_start - cur_frame.setWidth 12).toNat ≤ 255

instance (cur_frame : BitVec 16) (a : Alloc_base) : Decidable (Near cur_frame a) :=
  inferInstanceAs (Decidable (_ ≤ _))

/-- What the fields of the element can hold. -/
def Op.Fits (cur_frame : BitVec 16) : Op → Prop
  | .availability a => Near cur_frame a ∧ a.slot_range.toNat ≤ 127
  | .grant a => Near cur_frame a.toAlloc_base
  | .confirm a => Near cur_frame a.toAlloc_base
  | _ => True

instance (cur_frame : BitVec 16) : (op : Op) → Decidable (op.Fits cur_frame)
  | .availability _ => inferInstanceAs (Decidable (_ ∧ _))
  | .request _ => .isTrue trivial
  | .grant _ => inferInstanceAs (Decidable (Near _ _))
  | .confirm _ => inferInstanceAs (Decidable (Near _ _))
  | .nbr _ => .isTrue trivial

/-- The bytes of the message have the length that it tells, and the items are read back from them. -/
structure RoundTrip (m : MSH_DSCH) (ops : List Op) (cur_frame : BitVec 16) : Prop where
  length : m.copyTo.length = m.getLen
  availability : ∀ idx, (parse m.copyTo).get_availability_info idx cur_frame = (availabilities ops)[idx]?
  request : ∀ idx, (parse m.copyTo).get_request_info idx = (requests ops)[idx]?
  grant : ∀ idx, (parse m.copyTo).get_grant_info idx cur_frame = (grants ops)[idx]?
  confirm : ∀ idx, (parse m.copyTo).get_confirm_info idx cur_frame = (confirms ops)[idx]?
  nbr : ∀ idx, (parse m.copyTo).get_nbr_sch_entry idx = (nbrs ops)[idx]?

end MSH_DSCH

end Mesh
