import Mathlib.Data.Nat.ModEq
import Nctuns.Dvb.RcstQueue

/-!
# Time slots

The part of `Ncc_config` that turns ticks into superframes, frames and time slots and back. The
conversion of a quotient to `uint32_t` goes through `floor`, a `double`, and is undefined where it does not
fit.
-/

namespace Dvb

/-- How the clock fails. -/
inductive ClockHalt where
  /-- `frame_number < num_of_frame_per_superframe`, `timeslot_number < num_of_slot_per_frame` -/
  | assertion
  | division
  | conversion
  deriving DecidableEq, Repr

/-- The durations of slots, frames and superframes. -/
structure NccTiming where
  num_of_slot_per_frame : UInt16
  num_of_frame_per_superframe : UInt16
  timeslot_duration : UInt64
  frame_duration : UInt64
  superframe_duration : UInt64
  deriving DecidableEq, Repr

namespace NccTiming

variable (c : NccTiming)

/-- The time after which the numbers of superframes start again. -/
def superframe_wrap_around : UInt64 := (MAX_SUPERFRAME_COUNT.toUInt64 + 1) * c.superframe_duration

/-- The end of the three functions below. -/
def closest (ref_time start : UInt64) : Except ClockHalt UInt64 :=
  if ref_time > start then
    if c.superframe_wrap_around = 0 then .error .division
    else if ((ref_time - start) / c.superframe_wrap_around).toNat ≥ 2 ^ 32 then .error .conversion
    else
      let i := ((ref_time - start) / c.superframe_wrap_around).toUInt32
      let start := start + i.toUInt64 * c.superframe_wrap_around
      if ref_time - start > c.superframe_wrap_around / 2 then
        .ok (start + c.superframe_wrap_around)
      else .ok start
  else .ok start

/-- When a superframe starts, next to a reference time. -/
def superframe_start (ref_time : UInt64) (superframe_count : UInt16) : Except ClockHalt UInt64 :=
  c.closest ref_time (superframe_count.toUInt64 * c.superframe_duration)

/-- When a frame starts, next to a reference time. -/
def frame_start (ref_time : UInt64) (superframe_count : UInt16) (frame_number : UInt8) :
    Except ClockHalt UInt64 :=
  if frame_number.toUInt16 < c.num_of_frame_per_superframe then
    c.closest ref_time (superframe_count.toUInt64 * c.superframe_duration +
      frame_number.toUInt64 * c.frame_duration)
  else .error .assertion

/-- When a slot starts, next to a reference time. -/
def timeslot_start (ref_time : UInt64) (superframe_count : UInt16) (frame_number : UInt8)
    (timeslot_number : UInt16) : Except ClockHalt UInt64 :=
  if frame_number.toUInt16 < c.num_of_frame_per_superframe ∧
      timeslot_number < c.num_of_slot_per_frame then
    c.closest ref_time (superframe_count.toUInt64 * c.superframe_duration +
      frame_number.toUInt64 * c.frame_duration + timeslot_number.toUInt64 * c.timeslot_duration)
  else .error .assertion

/-- `current_slot`: superframe count, frame number and time slot number. -/
def current_slot (current_time : UInt64) : Except ClockHalt (UInt16 × UInt8 × UInt16) :=
  if current_time = 0 then
    .ok (MAX_SUPERFRAME_COUNT, (c.num_of_frame_per_superframe - 1).toUInt8, c.num_of_slot_per_frame - 1)
  else if c.superframe_wrap_around = 0 ∨ c.superframe_duration = 0 ∨ c.frame_duration = 0 ∨
      c.timeslot_duration = 0 then .error .division
  else
    let time_offset := current_time % c.superframe_wrap_around
    let superframe_count := (time_offset / c.superframe_duration).toUInt16
    let time_offset := time_offset % c.superframe_duration
    let superframe_count :=
      if time_offset = 0 then
        if superframe_count ≠ 0 then superframe_count - 1 else MAX_SUPERFRAME_COUNT
      else superframe_count
    let frame_number := (time_offset / c.frame_duration).toUInt8
    let time_offset := time_offset % c.frame_duration
    let frame_number :=
      if time_offset = 0 then
        if frame_number ≠ 0 then frame_number - 1 else (c.num_of_frame_per_superframe - 1).toUInt8
      else frame_number
    let timeslot_number := (time_offset / c.timeslot_duration).toUInt16
    let time_offset := time_offset % c.timeslot_duration
    let timeslot_number :=
      if time_offset = 0 then
        if timeslot_number ≠ 0 then timeslot_number - 1 else c.num_of_slot_per_frame - 1
      else timeslot_number
    .ok (superframe_count, frame_number, timeslot_number)

/-! ## The clock and its inverse -/

/-- The durations are those of the slots of a frame and of the frames of a superframe. -/
structure Divides : Prop where
  timeslot_pos : 0 < c.timeslot_duration.toNat
  slots_pos : 0 < c.num_of_slot_per_frame.toNat
  frames_pos : 0 < c.num_of_frame_per_superframe.toNat
  frame : c.frame_duration.toNat = c.num_of_slot_per_frame.toNat * c.timeslot_duration.toNat
  superframe :
    c.superframe_duration.toNat = c.num_of_frame_per_superframe.toNat * c.frame_duration.toNat

/-- The time slot at a tick is one that begins before it and does not end before it. -/
def Inverts (t : UInt64) : Prop :=
  ∃ s f k start, c.current_slot t = .ok (s, f, k) ∧
    f.toNat < c.num_of_frame_per_superframe.toNat ∧ k.toNat < c.num_of_slot_per_frame.toNat ∧
    c.timeslot_start t s f k = .ok start ∧ start.toNat < t.toNat ∧
    t.toNat ≤ start.toNat + c.timeslot_duration.toNat

/-- The first time that the frame begins. -/
def firstStart (s : UInt16) (f : UInt8) : ℕ :=
  s.toNat * c.superframe_duration.toNat + f.toNat * c.frame_duration.toNat

/-- The superframe counter starts again. -/
def wrap : ℕ := 65536 * c.superframe_duration.toNat

/-- A superframe counter of 16 bits, frame numbers of 8 bits and ticks of 64 bits are enough. -/
structure Fits : Prop extends c.Divides where
  frames_le : c.num_of_frame_per_superframe.toNat ≤ 256
  wrap_lt : c.wrap < 2 ^ 64

/-- The start of the frame is one of its starts, and no other one is closer unless there was none yet. -/
def StartsNear (ref : UInt64) (s : UInt16) (f : UInt8) : Prop :=
  ∃ start, c.frame_start ref s f = .ok start ∧ start.toNat ≡ c.firstStart s f [MOD c.wrap] ∧
    (c.firstStart s f ≤ ref.toNat →
      ref.toNat ≤ start.toNat + c.wrap / 2 ∧ start.toNat ≤ ref.toNat + c.wrap / 2)

end NccTiming

end Dvb
