import Mathlib.Data.List.Basic

/-!
# Allocations and their bitmap

`alloc_base.cc` and the marks of `bitmap.cc`. Frame numbers have 12 bits, and of two frames the one that is
less than 2047 frames ahead is the later one. A range of 255 frames stands for a persistent allocation. The
boundary of the search for free minislots is not part of the marks.
-/

namespace Mesh

/-- The longest range of an allocation that ends. -/
def PERSISTENCE_MAX : ℕ := 128
/-- The frames in which an allocation of the bitmap may start. -/
def FRAME_START_MAX : ℕ := 0x100
/-- Half the circle of the frame numbers. -/
def FRAME_DIFF_MAX : ℕ := 0xfff >>> 1
/-- The range that stands for an allocation without end. -/
def FRAME_RANGE_PERSISTENCE : BitVec 8 := 0xff#8
/-- The frames of the bitmap. -/
def FRAME_MAX : ℕ := FRAME_START_MAX + PERSISTENCE_MAX

/-- An allocation: a range of frames and a range of minislots. -/
structure Alloc_base where
  frame_start : BitVec 12
  frame_range : BitVec 8
  slot_start : BitVec 8
  slot_range : BitVec 8
  deriving DecidableEq, Repr

namespace Alloc_base

variable (a : Alloc_base)

/-- The frame behind the last one, as for a range that is no persistence. -/
def expired_frame : BitVec 12 := a.frame_start + a.frame_range.setWidth 12

/-- The allocation has begun. -/
def is_active (frame_base : BitVec 12) : Bool :=
  a.frame_range = FRAME_RANGE_PERSISTENCE ∨ (frame_base - a.frame_start).toNat < FRAME_DIFF_MAX

/-- `frame_remain`; it fails if the allocation is not active. -/
def frame_remain (frame_base : BitVec 12) : Option ℕ :=
  if a.frame_range = FRAME_RANGE_PERSISTENCE then some 255
  else if a.is_active frame_base = false then none
  else if (a.expired_frame - frame_base).toNat < FRAME_DIFF_MAX then
    some ((a.expired_frame - frame_base).toNat % 256)
  else some 0

/-- The comparison of two allocations. -/
def is_in_between (container : Alloc_base) : Bool :=
  if a.slot_start < container.slot_start ∨
      a.slot_start.toNat + a.slot_range.toNat > container.slot_start.toNat + container.slot_range.toNat then false
  else if a.frame_range = FRAME_RANGE_PERSISTENCE ∧ container.frame_range = FRAME_RANGE_PERSISTENCE then true
  else if (a.frame_start - container.frame_start).toNat ≥ FRAME_DIFF_MAX ∨
      (container.expired_frame - a.expired_frame).toNat ≥ FRAME_DIFF_MAX then false
  else true

end Alloc_base

/-- One bit for each frame and minislot from the base on. -/
structure Bitmap where
  nf_slot : BitVec 8
  frame_base : BitVec 12
  bitmap : List Bool
  sized : bitmap.length = nf_slot.toNat * FRAME_MAX

namespace Bitmap

variable (b : Bitmap)

/-- The bit of a frame and a minislot. -/
def bit_get (frame slot : ℕ) : Bool := b.bitmap.getD (frame * b.nf_slot.toNat + slot) false

/-- `_range_check`: the range of minislots that is left inside the bitmap. -/
def range_check (frame_start slot_start frame_range slot_range : ℕ) : Option ℕ :=
  if frame_start ≥ FRAME_START_MAX then none
  else if frame_range ≠ 255 ∧ frame_start + frame_range > FRAME_MAX then none
  else if slot_start ≥ b.nf_slot.toNat then none
  else if slot_start + slot_range > b.nf_slot.toNat then some (b.nf_slot.toNat - slot_start)
  else some slot_range

theorem length_foldl_set (is : List ℕ) (m : List Bool) :
    (is.foldl (fun m i => m.set i true) m).length = m.length := by
  induction is generalizing m with
  | nil => rfl
  | cons i is ih => rw [List.foldl_cons, ih, List.length_set]

/-- The places of a block of minislots, in the order in which they are visited. -/
def places (frame_start slot_start frame_range slot_range : ℕ) : List ℕ :=
  (List.range' frame_start frame_range).flatMap fun fr =>
    (List.range slot_range).map fun j => fr * b.nf_slot.toNat + slot_start + j

/-- `bit_set`; `none` is a failed assertion. -/
def bit_set (frame_start slot_start frame_range slot_range : ℕ) : Option Bitmap := do
  let slot_range ← b.range_check frame_start slot_start frame_range slot_range
  some { b with
    bitmap := (b.places frame_start slot_start frame_range slot_range).foldl (fun m i => m.set i true) b.bitmap
    sized := (length_foldl_set _ _).trans b.sized }

/-- All bits are cleared. -/
def init (frame_base : BitVec 12) : Bitmap where
  nf_slot := b.nf_slot
  frame_base := frame_base
  bitmap := List.replicate (b.nf_slot.toNat * FRAME_MAX) false
  sized := List.length_replicate

/-- `cumulate`; `none` is a failed assertion. -/
def cumulate (add_alloc : Alloc_base) : Option Bitmap :=
  if add_alloc.is_active (b.frame_base + BitVec.ofNat 12 (FRAME_MAX - 1)) = false then some b
  else if add_alloc.is_active b.frame_base then do
    if (← add_alloc.frame_remain b.frame_base) = 0 then some b
    else
      b.bit_set 0 add_alloc.slot_start.toNat
        (if add_alloc.frame_range = FRAME_RANGE_PERSISTENCE then FRAME_MAX
          else (add_alloc.frame_range.toNat + 65536 - (b.frame_base - add_alloc.frame_start).toNat) % 65536)
        add_alloc.slot_range.toNat
  else
    b.bit_set (add_alloc.frame_start - b.frame_base).toNat add_alloc.slot_start.toNat
      (if add_alloc.frame_range = FRAME_RANGE_PERSISTENCE then FRAME_MAX else add_alloc.frame_range.toNat)
      add_alloc.slot_range.toNat

end Bitmap

/-! ## What an allocation covers -/

namespace Alloc_base

variable (a : Alloc_base)

/-- The allocation has no end. -/
def Persistent : Prop := a.frame_range = FRAME_RANGE_PERSISTENCE

instance : Decidable a.Persistent := inferInstanceAs (Decidable (_ = _))

/-- The allocation covers the frame; the start of a persistent one is meaningless. -/
def Covers (f : BitVec 12) : Prop := a.Persistent ∨ (f - a.frame_start).toNat < a.frame_range.toNat

/-- The minislot is one of the allocation. -/
def Uses (s : ℕ) : Prop := a.slot_start.toNat ≤ s ∧ s < a.slot_start.toNat + a.slot_range.toNat

/-- The start lies at most 255 frames behind the base or less than 2047 before it, and the range is at most
    128 frames or persistent. -/
def InWindow (base : BitVec 12) : Prop :=
  ((a.frame_start - base).toNat ≤ 255 ∨ (base - a.frame_start).toNat < FRAME_DIFF_MAX) ∧
    (a.Persistent ∨ a.frame_range.toNat ≤ PERSISTENCE_MAX)

/-- All frames of the allocation are before the base. -/
def Expired (base : BitVec 12) : Prop :=
  ¬ a.Persistent ∧ (base - a.frame_start).toNat < FRAME_DIFF_MAX ∧
    a.frame_range.toNat ≤ (base - a.frame_start).toNat

/-- In every frame of `a`, its minislots are minislots of `b`. -/
def Inside (b : Alloc_base) : Prop := ∀ f, a.Covers f → ∀ s, a.Uses s → b.Covers f ∧ b.Uses s

end Alloc_base

/-- `cumulate` fails no assertion, and the bits that it adds are those that the allocation covers. -/
def Bitmap.Marks (b : Bitmap) (a : Alloc_base) : Prop :=
  ∃ b', b.cumulate a = some b' ∧ b'.nf_slot = b.nf_slot ∧ b'.frame_base = b.frame_base ∧
    ∀ f < FRAME_MAX, ∀ s < b.nf_slot.toNat,
      (b'.bit_get f s = true ↔ b.bit_get f s = true ∨ a.Covers (b.frame_base + BitVec.ofNat 12 f) ∧ a.Uses s)

namespace Alloc_base

variable (a b : Alloc_base)

/-- The frames from the start of `b` to the start of `a`. -/
def gap : ℕ := (a.frame_start - b.frame_start).toNat

/-- The minislots of `a` lie between those of `b`. -/
def SlotsWithin : Prop :=
  b.slot_start.toNat ≤ a.slot_start.toNat ∧
    a.slot_start.toNat + a.slot_range.toNat ≤ b.slot_start.toNat + b.slot_range.toNat

/-- The frame intervals are ordered, with 255 as a number of frames. -/
def FramesPass : Prop :=
  a.Persistent ∧ b.Persistent ∨
    a.gap b < FRAME_DIFF_MAX ∧
      (a.gap b + a.frame_range.toNat ≤ b.frame_range.toNat ∨
        b.frame_range.toNat + 2049 < a.gap b + a.frame_range.toNat)

/-- The allocation has no frame or no minislot. -/
def Empty : Prop := a.frame_range = 0 ∨ a.slot_range = 0

/-- The comparison of `a` with `b` is not misled: an `a` without a frame or minislot lies between those of
    `b`; in a persistent `b`, `a` is persistent too or ends within 255 frames; and before the start of
    another `b`, `a` is not so far that it looks like behind it. -/
def Compared : Prop :=
  (a.Empty → a.SlotsWithin b ∧ a.FramesPass b) ∧
    (¬ a.Empty → a.SlotsWithin b →
      (b.Persistent → a.Persistent ∨ a.gap b + a.frame_range.toNat ≤ 255) ∧
        (¬ b.Persistent → a.gap b < FRAME_DIFF_MAX →
          a.gap b + a.frame_range.toNat ≤ b.frame_range.toNat + 2049))

instance : Decidable (a.SlotsWithin b) := inferInstanceAs (Decidable (_ ∧ _))

instance : Decidable (a.FramesPass b) := inferInstanceAs (Decidable (_ ∨ _))

instance : Decidable a.Empty := inferInstanceAs (Decidable (_ ∨ _))

instance : Decidable (a.Compared b) := inferInstanceAs (Decidable (_ ∧ _))

instance (base : BitVec 12) : Decidable (a.InWindow base) := inferInstanceAs (Decidable (_ ∧ _))

end Alloc_base

end Mesh
