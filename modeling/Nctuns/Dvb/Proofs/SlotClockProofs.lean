import Nctuns.Dvb.SlotClock
import Nctuns.Lib.Cycle

/-!
# Proofs about time slots

Each division of `current_slot` with its boundary correction is a digit of the tick, and `closest` is the
nearest occurrence in cycles of the superframe counter. A tick that is put together from its digits
is less than half a cycle after the start of its slot.
-/

namespace Dvb.NccTiming

open Cycle

variable {c : NccTiming} {t : UInt64}

/-! ### Words -/

theorem toNat_wrap_around (hwrap : c.wrap < 2 ^ 64) :
    c.superframe_wrap_around.toNat = c.wrap := by
  rw [superframe_wrap_around, UInt64.toNat_mul]
  exact Nat.mod_eq_of_lt hwrap

theorem eq_zero_iff {a : UInt64} : a = 0 ↔ a.toNat = 0 := UInt64.toNat_inj.symm

/-- A digit with its boundary correction, in words of any width: `quot` is the quotient, `less` the word
    before it. -/
theorem toNat_digit {W : Type} [DecidableEq W] (toNat : W → ℕ) {quot zero less last : W} {o unit : UInt64}
    {count : ℕ} (hquot : toNat quot = o.toNat / unit.toNat) (hzero : quot = zero ↔ toNat quot = 0)
    (hless : toNat quot ≠ 0 → toNat less = toNat quot - 1) (hlast : toNat last = count - 1) :
    toNat (if o % unit = 0 then if quot ≠ zero then less else last else quot) =
      digit unit.toNat count o.toNat := by
  have hmod : o % unit = 0 ↔ o.toNat % unit.toNat = 0 := by
    rw [eq_zero_iff, UInt64.toNat_mod]
  rw [hquot] at hzero hless
  unfold digit
  by_cases hend : o % unit = 0
  · rw [if_pos hend, if_pos (hmod.1 hend)]
    by_cases h0 : quot = zero
    · rw [if_neg (not_not.2 h0), if_pos (hzero.1 h0), hlast]
    · rw [if_pos h0, if_neg (mt hzero.2 h0), hless (mt hzero.2 h0)]
  · rw [if_neg hend, if_neg (mt hmod.2 hend), hquot]

theorem toNat_pred8 {x : UInt8} (h : x.toNat ≠ 0) : (x - 1).toNat = x.toNat - 1 :=
  UInt8.toNat_sub_of_le _ _ (UInt8.le_iff_toNat_le.2 (Nat.one_le_iff_ne_zero.2 h))

theorem toNat_pred16 {x : UInt16} (h : x.toNat ≠ 0) : (x - 1).toNat = x.toNat - 1 :=
  UInt16.toNat_sub_of_le _ _ (UInt16.le_iff_toNat_le.2 (Nat.one_le_iff_ne_zero.2 h))

/-! ### The closest occurrence -/

/-- While the quotient and the result fit, nothing wraps. -/
theorem closest_ok (hwrap : c.wrap < 2 ^ 64) (hpos : 0 < c.wrap) (ref start : UInt64)
    (hquot : (ref.toNat - start.toNat) / c.wrap < 2 ^ 32)
    (hfits : nearest c.wrap start.toNat ref.toNat < 2 ^ 64) :
    ∃ r, c.closest ref start = .ok r ∧ r.toNat = nearest c.wrap start.toNat ref.toNat := by
  have hW := toNat_wrap_around hwrap
  unfold closest
  unfold nearest at hfits ⊢
  dsimp only at hfits ⊢
  by_cases hlt : ref > start
  · have hlt' : start.toNat < ref.toNat := UInt64.lt_iff_toNat_lt.1 hlt
    have hne : c.superframe_wrap_around ≠ 0 := by
      rw [Ne, eq_zero_iff, hW]
      omega
    have hdiff : (ref - start).toNat = ref.toNat - start.toNat :=
      UInt64.toNat_sub_of_le _ _ (UInt64.le_iff_toNat_le.2 hlt'.le)
    have hdiv : ((ref - start) / c.superframe_wrap_around).toNat =
        (ref.toNat - start.toNat) / c.wrap := by
      rw [UInt64.toNat_div, hdiff, hW]
    have hcycles : start.toNat + (ref.toNat - start.toNat) / c.wrap * c.wrap ≤ ref.toNat := by
      have := Nat.div_mul_le_self (ref.toNat - start.toNat) c.wrap
      omega
    have href := ref.toNat_lt
    have hi : ((ref - start) / c.superframe_wrap_around).toUInt32.toUInt64.toNat =
        (ref.toNat - start.toNat) / c.wrap := by
      rw [UInt32.toNat_toUInt64, UInt64.toNat_toUInt32, hdiv]
      exact Nat.mod_eq_of_lt hquot
    have hstart : (start + ((ref - start) / c.superframe_wrap_around).toUInt32.toUInt64 *
        c.superframe_wrap_around).toNat = start.toNat + (ref.toNat - start.toNat) / c.wrap * c.wrap := by
      rw [UInt64.toNat_add, UInt64.toNat_mul, hi, hW, Nat.mod_eq_of_lt (b := 2 ^ 64) (by omega),
        Nat.mod_eq_of_lt (by omega)]
    rw [if_pos hlt, if_neg hne, if_neg (by rw [hdiv]; omega)]
    rw [if_pos hlt'] at hfits ⊢
    generalize start + ((ref - start) / c.superframe_wrap_around).toUInt32.toUInt64 *
      c.superframe_wrap_around = first at hstart ⊢
    rw [← hstart] at hfits hcycles ⊢
    have hrest : (ref - first).toNat = ref.toNat - first.toNat :=
      UInt64.toNat_sub_of_le _ _ (UInt64.le_iff_toNat_le.2 (by omega))
    have hhalf : ref - first > c.superframe_wrap_around / 2 ↔
        ref.toNat - first.toNat > c.wrap / 2 := by
      rw [gt_iff_lt, UInt64.lt_iff_toNat_lt, UInt64.toNat_div, hW, hrest]
      rfl
    by_cases hfar : ref - first > c.superframe_wrap_around / 2
    · rw [if_pos hfar]
      rw [if_pos (hhalf.1 hfar)] at hfits ⊢
      refine ⟨_, rfl, ?_⟩
      rw [UInt64.toNat_add, hW]
      exact Nat.mod_eq_of_lt hfits
    · rw [if_neg hfar, if_neg (mt hhalf.2 hfar)]
      exact ⟨_, rfl, rfl⟩
  · have hlt' : ¬ ref.toNat > start.toNat := fun h => hlt (UInt64.lt_iff_toNat_lt.2 h)
    rw [if_neg hlt, if_neg hlt']
    exact ⟨_, rfl, rfl⟩

/-! ### The slot of a tick -/

theorem Fits.frame_pos (h : c.Fits) : 0 < c.frame_duration.toNat := by
  rw [h.frame]
  exact Nat.mul_pos h.slots_pos h.timeslot_pos

theorem Fits.superframe_pos (h : c.Fits) : 0 < c.superframe_duration.toNat := by
  rw [h.superframe]
  exact Nat.mul_pos h.frames_pos h.frame_pos

theorem Fits.wrap_pos (h : c.Fits) : 0 < c.wrap := Nat.mul_pos (by decide) h.superframe_pos

/-- The three numbers are the digits of the tick. -/
theorem current_slot_ok (h : c.Fits) (ht : 1 ≤ t.toNat) :
    ∃ s f k, c.current_slot t = .ok (s, f, k) ∧
      s.toNat = digit c.superframe_duration.toNat 65536 (t.toNat % c.wrap) ∧
      f.toNat = digit c.frame_duration.toNat c.num_of_frame_per_superframe.toNat
        (t.toNat % c.superframe_duration.toNat) ∧
      k.toNat = digit c.timeslot_duration.toNat c.num_of_slot_per_frame.toNat
        (t.toNat % c.frame_duration.toNat) := by
  have hW := toNat_wrap_around h.wrap_lt
  have hzero : t ≠ 0 := by
    rw [Ne, eq_zero_iff]
    omega
  have hdivs : ¬ (c.superframe_wrap_around = 0 ∨ c.superframe_duration = 0 ∨ c.frame_duration = 0 ∨
      c.timeslot_duration = 0) := by
    have hw := h.wrap_pos
    have hs := h.superframe_pos
    have hf := h.frame_pos
    have ht := h.timeslot_pos
    simp only [eq_zero_iff, hW]
    omega
  have hoffset : (t % c.superframe_wrap_around).toNat = t.toNat % c.wrap := by
    rw [UInt64.toNat_mod, hW]
  have hoffset' : (t % c.superframe_wrap_around % c.superframe_duration).toNat =
      t.toNat % c.superframe_duration.toNat := by
    rw [UInt64.toNat_mod, hoffset]
    exact Nat.mod_mod_of_dvd _ (Dvd.intro_left 65536 rfl)
  have hoffset'' : (t % c.superframe_wrap_around % c.superframe_duration % c.frame_duration).toNat =
      t.toNat % c.frame_duration.toNat := by
    rw [UInt64.toNat_mod, hoffset', Nat.mod_mod_of_dvd _ (Dvd.intro_left _ h.superframe.symm)]
  unfold current_slot
  rw [if_neg hzero, if_neg hdivs]
  refine ⟨_, _, _, rfl, ?_, ?_, ?_⟩
  · rw [← hoffset]
    refine toNat_digit UInt16.toNat ?_ UInt16.toNat_inj.symm toNat_pred16 rfl
    rw [UInt64.toNat_toUInt16, UInt64.toNat_div, hoffset]
    exact Nat.mod_eq_of_lt
      (Nat.div_lt_of_lt_mul (by rw [Nat.mul_comm]; exact Nat.mod_lt _ h.wrap_pos))
  · rw [← hoffset']
    have hlast : (c.num_of_frame_per_superframe - 1).toUInt8.toNat =
        c.num_of_frame_per_superframe.toNat - 1 := by
      have hle : 1 ≤ c.num_of_frame_per_superframe := UInt16.le_iff_toNat_le.2 h.frames_pos
      have hbytes := h.frames_le
      rw [UInt16.toNat_toUInt8, UInt16.toNat_sub_of_le _ _ hle]
      exact Nat.mod_eq_of_lt (by show _ - 1 < _; omega)
    refine toNat_digit UInt8.toNat ?_ UInt8.toNat_inj.symm toNat_pred8 hlast
    rw [UInt64.toNat_toUInt8, UInt64.toNat_div, hoffset']
    refine Nat.mod_eq_of_lt (lt_of_lt_of_le (Nat.div_lt_of_lt_mul ?_) h.frames_le)
    rw [Nat.mul_comm, ← h.superframe]
    exact Nat.mod_lt _ h.superframe_pos
  · rw [← hoffset'']
    have hlast : (c.num_of_slot_per_frame - 1).toNat = c.num_of_slot_per_frame.toNat - 1 :=
      UInt16.toNat_sub_of_le _ _ (UInt16.le_iff_toNat_le.2 h.slots_pos)
    refine toNat_digit UInt16.toNat ?_ UInt16.toNat_inj.symm toNat_pred16 hlast
    rw [UInt64.toNat_toUInt16, UInt64.toNat_div, hoffset'']
    refine Nat.mod_eq_of_lt (lt_trans (Nat.div_lt_of_lt_mul ?_) c.num_of_slot_per_frame.toNat_lt)
    rw [Nat.mul_comm, ← h.frame]
    exact Nat.mod_lt _ h.frame_pos

/-- A tick is a number of whole cycles, the start of its slot and its tick of the slot. -/
theorem slot_parts (h : c.Fits) (ht : 1 ≤ t.toNat) {s : UInt16} {f : UInt8} {k : UInt16}
    (hs : s.toNat = digit c.superframe_duration.toNat 65536 (t.toNat % c.wrap))
    (hf : f.toNat = digit c.frame_duration.toNat c.num_of_frame_per_superframe.toNat
      (t.toNat % c.superframe_duration.toNat))
    (hk : k.toNat = digit c.timeslot_duration.toNat c.num_of_slot_per_frame.toNat
      (t.toNat % c.frame_duration.toNat)) :
    f.toNat < c.num_of_frame_per_superframe.toNat ∧ k.toNat < c.num_of_slot_per_frame.toNat ∧
      t.toNat = c.firstStart s f + k.toNat * c.timeslot_duration.toNat +
        (t.toNat - 1) / c.wrap * c.wrap + tick c.timeslot_duration.toNat t.toNat := by
  have hcycles := eq_cycles_add_tick h.wrap_pos ht
  obtain ⟨-, hsuper⟩ := digit_spec h.superframe_pos (show 0 < 65536 by decide) t.toNat
  obtain ⟨hflt, hframe⟩ := digit_spec h.frame_pos h.frames_pos t.toNat
  obtain ⟨hklt, hslot⟩ := digit_spec h.timeslot_pos h.slots_pos t.toNat
  rw [← h.superframe, ← hf] at hframe hflt
  rw [← h.frame, ← hk] at hslot hklt
  rw [show 65536 * c.superframe_duration.toNat = c.wrap from rfl, ← hs] at hsuper
  refine ⟨hflt, hklt, ?_⟩
  unfold firstStart
  omega

theorem timeslot_le_half (h : c.Fits) : c.timeslot_duration.toNat ≤ c.wrap / 2 := by
  have hframe : c.timeslot_duration.toNat ≤ c.frame_duration.toNat := by
    rw [h.frame]
    exact Nat.le_mul_of_pos_left _ h.slots_pos
  have hsuper : c.frame_duration.toNat ≤ c.superframe_duration.toNat := by
    rw [h.superframe]
    exact Nat.le_mul_of_pos_left _ h.frames_pos
  unfold wrap
  omega

/-- The first start of a slot is a number of ticks. -/
theorem toNat_firstStart {s : UInt16} {f : UInt8} {k : UInt16}
    (hlt : c.firstStart s f + k.toNat * c.timeslot_duration.toNat < 2 ^ 64) :
    (s.toUInt64 * c.superframe_duration + f.toUInt64 * c.frame_duration +
      k.toUInt64 * c.timeslot_duration).toNat =
        c.firstStart s f + k.toNat * c.timeslot_duration.toNat := by
  unfold firstStart at hlt ⊢
  rw [UInt64.toNat_add, UInt64.toNat_add, UInt64.toNat_mul, UInt64.toNat_mul, UInt64.toNat_mul,
    UInt16.toNat_toUInt64, UInt8.toNat_toUInt64, UInt16.toNat_toUInt64]
  generalize s.toNat * c.superframe_duration.toNat = a at hlt ⊢
  generalize f.toNat * c.frame_duration.toNat = b at hlt ⊢
  generalize k.toNat * c.timeslot_duration.toNat = d at hlt ⊢
  omega

/-- **The inverse.** -/
theorem inverts (h : c.Fits) (ht : 1 ≤ t.toNat) (hquot : (t.toNat - 1) / c.wrap < 2 ^ 32) :
    c.Inverts t := by
  obtain ⟨s, f, k, hslot, hs, hf, hk⟩ := current_slot_ok h ht
  obtain ⟨hflt, hklt, hparts⟩ := slot_parts h ht hs hf hk
  have hpos := tick_pos h.timeslot_pos t.toNat
  have hle := tick_le h.timeslot_pos t.toNat
  have hhalf := timeslot_le_half h
  have htlt := t.toNat_lt
  generalize hd : tick c.timeslot_duration.toNat t.toNat = d at hparts hpos hle
  generalize hi : (t.toNat - 1) / c.wrap = i at hparts hquot
  obtain ⟨start, hstart⟩ : ∃ start, c.firstStart s f + k.toNat * c.timeslot_duration.toNat = start :=
    ⟨_, rfl⟩
  have hfirst := toNat_firstStart (c := c) (s := s) (f := f) (k := k) (by omega)
  rw [hstart] at hparts hfirst
  have hnear : nearest c.wrap start t.toNat = start + i * c.wrap := by
    rw [hparts]
    exact nearest_eq hpos (hle.trans hhalf)
  have hcycles : (t.toNat - start) / c.wrap < 2 ^ 32 := by
    have hdiff : t.toNat - start = d + i * c.wrap := by omega
    have hdlt : d < c.wrap := by
      have := h.wrap_pos
      omega
    rw [hdiff, Nat.add_mul_div_right _ _ h.wrap_pos, Nat.div_eq_of_lt hdlt, Nat.zero_add]
    exact hquot
  obtain ⟨r, hr, hrnear⟩ := closest_ok h.wrap_lt h.wrap_pos t
    (s.toUInt64 * c.superframe_duration + f.toUInt64 * c.frame_duration +
      k.toUInt64 * c.timeslot_duration) (by rwa [hfirst]) (by rw [hfirst, hnear]; omega)
  rw [hfirst, hnear] at hrnear
  refine ⟨s, f, k, r, hslot, hflt, hklt, ?_, by omega, by omega⟩
  unfold timeslot_start
  have hf16 : f.toUInt16 < c.num_of_frame_per_superframe := by
    rw [UInt16.lt_iff_toNat_lt, UInt8.toNat_toUInt16]
    exact hflt
  rw [if_pos ⟨hf16, UInt16.lt_iff_toNat_lt.2 hklt⟩]
  exact hr

/-- **The closest start of a frame.** -/
theorem startsNear (h : c.Fits) {ref : UInt64} {s : UInt16} {f : UInt8}
    (hf : f.toNat < c.num_of_frame_per_superframe.toNat)
    (hquot : (ref.toNat - c.firstStart s f) / c.wrap < 2 ^ 32)
    (hfits : ref.toNat + c.wrap / 2 < 2 ^ 64) : c.StartsNear ref s f := by
  have hwrap := h.wrap_lt
  have hinside : c.firstStart s f < c.wrap := by
    have hs := s.toNat_lt
    have hframe : (f.toNat + 1) * c.frame_duration.toNat ≤ c.superframe_duration.toNat := by
      rw [h.superframe]
      exact Nat.mul_le_mul_right _ hf
    have hsuper : (s.toNat + 1) * c.superframe_duration.toNat ≤ 65536 * c.superframe_duration.toNat :=
      Nat.mul_le_mul_right _ hs
    have hpos := h.frame_pos
    unfold firstStart wrap
    rw [Nat.add_mul, Nat.one_mul] at hframe hsuper
    omega
  have hfirst := toNat_firstStart (c := c) (s := s) (f := f) (k := 0) (by
    show _ + 0 * _ < _
    omega)
  have hzero : (0 : UInt16).toUInt64 * c.timeslot_duration = 0 := by
    rw [show (0 : UInt16).toUInt64 = 0 from rfl, UInt64.zero_mul]
  rw [hzero, UInt64.add_zero, show (0 : UInt16).toNat = 0 from rfl, Nat.zero_mul, Nat.add_zero] at hfirst
  have hnear : nearest c.wrap (c.firstStart s f) ref.toNat < 2 ^ 64 := by
    rcases Nat.lt_or_ge ref.toNat (c.firstStart s f) with hlt | hge
    · unfold nearest
      rw [if_neg (by omega)]
      omega
    · have := (nearest_le h.wrap_pos hge).2
      omega
  obtain ⟨r, hr, hrnear⟩ := closest_ok h.wrap_lt h.wrap_pos ref
    (s.toUInt64 * c.superframe_duration + f.toUInt64 * c.frame_duration)
    (by rwa [hfirst]) (by rwa [hfirst])
  rw [hfirst] at hrnear
  refine ⟨r, ?_, ?_, fun hle => ?_⟩
  · unfold frame_start
    have hf16 : f.toUInt16 < c.num_of_frame_per_superframe := by
      rw [UInt16.lt_iff_toNat_lt, UInt8.toNat_toUInt16]
      exact hf
    rw [if_pos hf16]
    exact hr
  · rw [hrnear]
    exact nearest_modEq _ _ _
  · rw [hrnear]
    exact nearest_le h.wrap_pos hle

/-! ### The clock -/

/-- While frame numbers have a byte and ticks and quotients have their words, the slot of a tick is the
one it lies in, and the start of a frame the closest one. -/
theorem clock_inverts (h : c.Fits) :
    (∀ t : UInt64, 1 ≤ t.toNat → (t.toNat - 1) / c.wrap < 2 ^ 32 → c.Inverts t) ∧
      ∀ (ref : UInt64) (s : UInt16) (f : UInt8), f.toNat < c.num_of_frame_per_superframe.toNat →
        (ref.toNat - c.firstStart s f) / c.wrap < 2 ^ 32 → ref.toNat + c.wrap / 2 < 2 ^ 64 →
          c.StartsNear ref s f := by
  constructor
  · intro t ht hquot
    exact inverts h ht hquot
  · intro ref s f hf hquot hfits
    exact startsNear h hf hquot hfits

/-- Three frames of four slots of five ticks, one tick after the first wrap. -/
theorem clock_inverts_small :
    NccTiming.Inverts ⟨4, 3, 5, 20, 60⟩ 3932161 ∧ NccTiming.StartsNear ⟨4, 3, 5, 20, 60⟩ 3932161 7 2 := by
  have hfits : Fits ⟨4, 3, 5, 20, 60⟩ := by
    refine ⟨⟨?_, ?_, ?_, ?_, ?_⟩, ?_, ?_⟩ <;> decide
  constructor
  · exact (clock_inverts hfits).1 _ (by decide) (by decide)
  · exact (clock_inverts hfits).2 _ _ _ (by decide) (by decide) (by decide)

/-- With 257 frames the last one is taken for the first. -/
theorem last_frame_truncated :
    NccTiming.Divides ⟨1, 257, 1, 1, 257⟩ ∧ ¬ NccTiming.Inverts ⟨1, 257, 1, 1, 257⟩ 257 := by
  constructor
  · refine ⟨?_, ?_, ?_, ?_, ?_⟩ <;> decide
  · rintro ⟨s, f, k, start, hslot, -, -, hstart, -, hle⟩
    rw [show current_slot ⟨1, 257, 1, 1, 257⟩ 257 = .ok (0, 0, 0) by decide] at hslot
    simp only [Except.ok.injEq, Prod.mk.injEq] at hslot
    obtain ⟨rfl, rfl, rfl⟩ := hslot
    rw [show timeslot_start ⟨1, 257, 1, 1, 257⟩ 257 0 0 0 = .ok 0 by decide, Except.ok.injEq] at hstart
    subst hstart
    exact absurd hle (by decide)

end Dvb.NccTiming
