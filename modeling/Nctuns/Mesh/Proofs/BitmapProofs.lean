import Nctuns.Mesh.Bitmap

/-!
# The bitmap marks exactly the allocation

Relative to the base, an allocation of the window is a block of the bitmap that begins at frame 0 or later.
Frame numbers are compared as the distance from one to the other.
-/

namespace Mesh

/-! ## Bits -/

theorem getD_foldl_set (is : List ℕ) (m : List Bool) (k : ℕ) :
    (is.foldl (fun m i => m.set i true) m).getD k false = true ↔
      m.getD k false = true ∨ k ∈ is ∧ k < m.length := by
  induction is generalizing m with
  | nil => simp
  | cons i is ih =>
    rw [List.foldl_cons, ih, List.length_set]
    have hset : (m.set i true).getD k false = true ↔ m.getD k false = true ∨ k = i ∧ k < m.length := by
      by_cases hk : k < m.length
      · by_cases hik : i = k
        · subst hik
          simp [List.getD_eq_getElem?_getD, hk]
        · simp [List.getD_eq_getElem?_getD, hik, Ne.symm hik]
      · simp [List.getD_eq_getElem?_getD, hk]
    rw [hset, List.mem_cons]
    tauto

namespace Bitmap

variable {b : Bitmap}

theorem mem_places {k fs ss fr sr : ℕ} :
    k ∈ b.places fs ss fr sr ↔ ∃ f, (fs ≤ f ∧ f < fs + fr) ∧ ∃ j, j < sr ∧ f * b.nf_slot.toNat + ss + j = k := by
  simp [places, List.mem_flatMap, List.mem_range'_1]

/-- A minislot of a frame has a place of its own. -/
theorem place_inj {n f s g t : ℕ} (hs : s < n) (ht : t < n) (h : f * n + s = g * n + t) : f = g ∧ s = t := by
  have hf : f = g := by
    have h1 : (f * n + s) / n = f := by
      rw [Nat.mul_comm, Nat.mul_add_div (by omega), Nat.div_eq_of_lt hs, Nat.add_zero]
    have h2 : (g * n + t) / n = g := by
      rw [Nat.mul_comm, Nat.mul_add_div (by omega), Nat.div_eq_of_lt ht, Nat.add_zero]
    rw [← h1, h, h2]
  subst hf
  exact ⟨rfl, by omega⟩

theorem place_lt {n f s : ℕ} (hf : f < FRAME_MAX) (hs : s < n) : f * n + s < n * FRAME_MAX := by
  calc f * n + s < f * n + n := by omega
    _ = (f + 1) * n := by rw [Nat.add_mul, Nat.one_mul]
    _ ≤ FRAME_MAX * n := Nat.mul_le_mul_right n hf
    _ = n * FRAME_MAX := Nat.mul_comm _ _

theorem bit_set_spec {ss : ℕ} (fs fr sr : ℕ) (hfs : fs < FRAME_START_MAX) (hfr : fs + fr ≤ FRAME_MAX)
    (hss : ss < b.nf_slot.toNat) :
    ∃ b', b.bit_set fs ss fr sr = some b' ∧ b'.nf_slot = b.nf_slot ∧ b'.frame_base = b.frame_base ∧
      ∀ f < FRAME_MAX, ∀ s < b.nf_slot.toNat,
        (b'.bit_get f s = true ↔
          b.bit_get f s = true ∨ (fs ≤ f ∧ f < fs + fr) ∧ ss ≤ s ∧ s < ss + sr) := by
  obtain ⟨r, hr, hin, hrs⟩ : ∃ r, b.range_check fs ss fr sr = some r ∧ ss + r ≤ b.nf_slot.toNat ∧
      ∀ s < b.nf_slot.toNat, s < ss + r ↔ s < ss + sr := by
    unfold range_check
    rw [if_neg (by omega), if_neg (by omega), if_neg (by omega)]
    split
    · exact ⟨_, rfl, by omega, fun s hs => by omega⟩
    · exact ⟨_, rfl, by omega, fun s _ => Iff.rfl⟩
  refine ⟨{ b with
    bitmap := (b.places fs ss fr r).foldl (fun m i => m.set i true) b.bitmap
    sized := (length_foldl_set _ _).trans b.sized }, by simp [bit_set, hr], rfl, rfl, ?_⟩
  intro f hf s hs
  have hlt : f * b.nf_slot.toNat + s < b.bitmap.length := by
    rw [b.sized]
    exact place_lt hf hs
  unfold bit_get
  rw [getD_foldl_set, mem_places]
  constructor
  · rintro (h | ⟨⟨g, hg, j, hj, h⟩, -⟩)
    · exact .inl h
    · refine .inr ?_
      rw [Nat.add_assoc] at h
      obtain ⟨rfl, rfl⟩ := place_inj (by omega) hs h
      exact ⟨hg, by omega, (hrs _ hs).1 (by omega)⟩
  · rintro (h | ⟨hg, h1, h2⟩)
    · exact .inl h
    · refine .inr ⟨⟨f, hg, s - ss, ?_, ?_⟩, hlt⟩
      · have := (hrs s hs).2 h2
        omega
      · rw [Nat.add_assoc, Nat.add_sub_cancel' h1]

theorem bit_get_init (b : Bitmap) (base : BitVec 12) (f s : ℕ) : (b.init base).bit_get f s = false := by
  by_cases h : f * b.nf_slot.toNat + s < b.nf_slot.toNat * FRAME_MAX
  · simp [bit_get, init, List.getD_eq_getElem?_getD, h]
  · simp [bit_get, init, List.getD_eq_getElem?_getD, h]

end Bitmap

/-! ## Frames -/

/-- The two distances between frames make a whole circle. -/
theorem distance_back (x y : BitVec 12) :
    (x - y).toNat = 0 ∧ (y - x).toNat = 0 ∨ (x - y).toNat + (y - x).toNat = 4096 := by
  rw [BitVec.toNat_sub, BitVec.toNat_sub]
  have := x.isLt
  have := y.isLt
  omega

theorem distance_ofNat (base start : BitVec 12) (f : ℕ) :
    (base + BitVec.ofNat 12 f - start).toNat = ((base - start).toNat + f) % 4096 := by
  rw [BitVec.toNat_sub, BitVec.toNat_sub, BitVec.toNat_add, BitVec.toNat_ofNat]
  have := base.isLt
  have := start.isLt
  omega

namespace Alloc_base

variable {a : Alloc_base}

theorem persistent_iff : a.Persistent ↔ a.frame_range.toNat = 255 := by
  unfold Persistent FRAME_RANGE_PERSISTENCE
  constructor
  · intro h
    rw [h]
    rfl
  · intro h
    exact BitVec.eq_of_toNat_eq (by rw [h]; rfl)

theorem is_active_iff {base : BitVec 12} :
    a.is_active base = true ↔ a.Persistent ∨ (base - a.frame_start).toNat < FRAME_DIFF_MAX := by
  unfold is_active
  exact decide_eq_true_iff

theorem expired_frame_sub (base : BitVec 12) :
    (a.expired_frame - base).toNat = (a.frame_range.toNat + 4096 - (base - a.frame_start).toNat) % 4096 := by
  unfold expired_frame
  rw [BitVec.toNat_sub, BitVec.toNat_sub, BitVec.toNat_add, BitVec.toNat_setWidth]
  have := base.isLt
  have := a.frame_start.isLt
  have := a.frame_range.isLt
  omega

/-- An active allocation that is not persistent has as many frames left as its range reaches past the base. -/
theorem frame_remain_eq (hp : ¬ a.Persistent) (hr : a.frame_range.toNat ≤ PERSISTENCE_MAX) (base : BitVec 12)
    (hact : (base - a.frame_start).toNat < FRAME_DIFF_MAX) :
    a.frame_remain base = some (a.frame_range.toNat - (base - a.frame_start).toNat) := by
  have hn : ¬ a.frame_range = FRAME_RANGE_PERSISTENCE := hp
  have hdiff : FRAME_DIFF_MAX = 2047 := rfl
  have hmax : PERSISTENCE_MAX = 128 := rfl
  have hactive : ¬ a.is_active base = false := by
    rw [is_active_iff.2 (.inr hact)]
    simp
  unfold frame_remain
  rw [if_neg hn, if_neg hactive, expired_frame_sub]
  by_cases h : (a.frame_range.toNat + 4096 - (base - a.frame_start).toNat) % 4096 < FRAME_DIFF_MAX
  · rw [if_pos h]
    congr 1
    omega
  · rw [if_neg h]
    congr 1
    omega

end Alloc_base

namespace Bitmap

variable {b : Bitmap} {a : Alloc_base}

/-- An allocation of the window whose minislots begin in the bitmap, or whose frames are all over. -/
theorem cumulate_marks (hw : a.InWindow b.frame_base)
    (hs : a.slot_start.toNat < b.nf_slot.toNat ∨ a.Expired b.frame_base) : b.Marks a := by
  obtain ⟨hstart, hrange⟩ := hw
  have hback := distance_back b.frame_base a.frame_start
  have hdist : ∀ f < FRAME_MAX, a.Covers (b.frame_base + BitVec.ofNat 12 f) ↔
      a.Persistent ∨ ((b.frame_base - a.frame_start).toNat + f) % 4096 < a.frame_range.toNat := by
    intro f _
    unfold Alloc_base.Covers
    rw [distance_ofNat]
  have hlast : (b.frame_base + BitVec.ofNat 12 (FRAME_MAX - 1) - a.frame_start).toNat =
      ((b.frame_base - a.frame_start).toNat + 383) % 4096 := distance_ofNat _ _ 383
  have hmax : FRAME_MAX = 384 := rfl
  have hdiff : FRAME_DIFF_MAX = 2047 := rfl
  have hpers : PERSISTENCE_MAX = 128 := rfl
  by_cases hp : a.Persistent
  · -- a persistent allocation is all over the bitmap
    have hp' : a.frame_range = FRAME_RANGE_PERSISTENCE := hp
    have hact : ∀ base, a.is_active base = true := fun base => Alloc_base.is_active_iff.2 (.inl hp)
    have hs : a.slot_start.toNat < b.nf_slot.toNat := by
      rcases hs with hs | hs
      · exact hs
      · exact absurd hp hs.1
    have hrem : a.frame_remain b.frame_base = some 255 := by
      unfold Alloc_base.frame_remain
      rw [if_pos hp']
    obtain ⟨b', hb', h1, h2, h3⟩ := bit_set_spec (b := b) 0 FRAME_MAX a.slot_range.toNat
      (by decide) (by decide) hs
    refine ⟨b', ?_, h1, h2, ?_⟩
    · unfold cumulate
      rw [if_neg (by simp [hact]), if_pos (hact _), hrem, if_pos hp']
      exact hb'
    · intro f hf s hs'
      rw [h3 f hf s hs', hdist f hf]
      unfold Alloc_base.Uses
      simp [hp, hf]
  · have hp' : ¬ a.frame_range = FRAME_RANGE_PERSISTENCE := hp
    have hr : a.frame_range.toNat ≤ PERSISTENCE_MAX := by
      rcases hrange with h | h
      · exact absurd h hp
      · exact h
    have hactive : ∀ base : BitVec 12, a.is_active base = true ↔ (base - a.frame_start).toNat < FRAME_DIFF_MAX := by
      intro base
      rw [Alloc_base.is_active_iff, or_iff_right hp]
    by_cases hover : a.Expired b.frame_base
    · -- no frame is left: nothing is marked
      refine ⟨b, ?_, rfl, rfl, ?_⟩
      · unfold cumulate
        split
        · rfl
        · rw [if_pos ((hactive _).2 hover.2.1), Alloc_base.frame_remain_eq hp hr _ hover.2.1,
            Nat.sub_eq_zero_of_le hover.2.2]
          rfl
      · intro f hf s _
        rw [hdist f hf, or_iff_right hp]
        have := hover.2
        constructor
        · exact .inl
        · rintro (h | ⟨h, -⟩)
          · exact h
          · omega
    · have hs : a.slot_start.toNat < b.nf_slot.toNat := hs.resolve_right hover
      by_cases hact : (b.frame_base - a.frame_start).toNat < FRAME_DIFF_MAX
      · -- it began before the base: its rest is at the beginning of the bitmap
        have hleft : (b.frame_base - a.frame_start).toNat < a.frame_range.toNat := by
          by_contra h
          exact hover ⟨hp, hact, by omega⟩
        obtain ⟨b', hb', h1, h2, h3⟩ := bit_set_spec (b := b) 0
          ((a.frame_range.toNat + 65536 - (b.frame_base - a.frame_start).toNat) % 65536) a.slot_range.toNat
          (by decide) (by omega) hs
        refine ⟨b', ?_, h1, h2, ?_⟩
        · have hlast' := (hactive (b.frame_base + BitVec.ofNat 12 (FRAME_MAX - 1))).2 (by omega)
          unfold cumulate
          rw [if_neg (by simp [hlast']), if_pos ((hactive _).2 hact), Alloc_base.frame_remain_eq hp hr _ hact,
            if_neg hp']
          have : a.frame_range.toNat - (b.frame_base - a.frame_start).toNat ≠ 0 := by omega
          simp only [Option.bind_eq_bind, Option.bind_some, this, if_false]
          exact hb'
        · intro f hf s hs'
          rw [h3 f hf s hs', hdist f hf, or_iff_right hp]
          have : ((b.frame_base - a.frame_start).toNat + f) % 4096 < a.frame_range.toNat ↔
              0 ≤ f ∧ f < 0 + (a.frame_range.toNat + 65536 - (b.frame_base - a.frame_start).toNat) % 65536 := by
            omega
          rw [this]
          rfl
      · -- it begins in the window
        obtain ⟨b', hb', h1, h2, h3⟩ := bit_set_spec (b := b)
          (a.frame_start - b.frame_base).toNat a.frame_range.toNat a.slot_range.toNat
          (by simp only [FRAME_START_MAX]; omega) (by omega) hs
        refine ⟨b', ?_, h1, h2, ?_⟩
        · have hlast' := (hactive (b.frame_base + BitVec.ofNat 12 (FRAME_MAX - 1))).2 (by omega)
          have hact' : ¬ a.is_active b.frame_base = true := fun h => hact ((hactive _).1 h)
          unfold cumulate
          rw [if_neg (by simp [hlast']), if_neg hact', if_neg hp']
          exact hb'
        · intro f hf s hs'
          rw [h3 f hf s hs', hdist f hf, or_iff_right hp]
          have : ((b.frame_base - a.frame_start).toNat + f) % 4096 < a.frame_range.toNat ↔
              (a.frame_start - b.frame_base).toNat ≤ f ∧
                f < (a.frame_start - b.frame_base).toNat + a.frame_range.toNat := by
            omega
          rw [this]
          rfl

end Bitmap

/-! ## Containment -/

namespace Alloc_base

variable {a b : Alloc_base}

theorem expired_frames_sub (a b : Alloc_base) :
    (b.expired_frame - a.expired_frame).toNat =
      (b.frame_range.toNat + 8192 - a.frame_range.toNat - a.gap b) % 4096 := by
  unfold expired_frame gap
  rw [BitVec.toNat_sub, BitVec.toNat_sub, BitVec.toNat_add, BitVec.toNat_add, BitVec.toNat_setWidth,
    BitVec.toNat_setWidth]
  have := b.frame_start.isLt
  have := a.frame_start.isLt
  have := a.frame_range.isLt
  have := b.frame_range.isLt
  omega

theorem is_in_between_iff : a.is_in_between b = true ↔ a.SlotsWithin b ∧ a.FramesPass b := by
  have hdiff : FRAME_DIFF_MAX = 2047 := rfl
  have ha := a.frame_range.isLt
  have hb := b.frame_range.isLt
  have hgap : a.gap b < 4096 := (a.frame_start - b.frame_start).isLt
  have hlt : a.slot_start < b.slot_start ↔ a.slot_start.toNat < b.slot_start.toNat := BitVec.lt_def
  have hexp := expired_frames_sub a b
  unfold is_in_between SlotsWithin FramesPass
  by_cases hs : a.slot_start < b.slot_start ∨
      a.slot_start.toNat + a.slot_range.toNat > b.slot_start.toNat + b.slot_range.toNat
  · rw [if_pos hs]
    rw [hlt] at hs
    refine iff_of_false (by simp) (fun h => ?_)
    omega
  · rw [if_neg hs]
    rw [hlt] at hs
    have hin : b.slot_start.toNat ≤ a.slot_start.toNat ∧
        a.slot_start.toNat + a.slot_range.toNat ≤ b.slot_start.toNat + b.slot_range.toNat := by omega
    rw [and_iff_right hin]
    by_cases hp : a.Persistent ∧ b.Persistent
    · exact iff_of_true (if_pos hp) (.inl hp)
    · rw [or_iff_right hp]
      refine (iff_of_eq (congrArg (· = true) (if_neg hp))).trans ?_
      have heq : (a.frame_start - b.frame_start).toNat = a.gap b := rfl
      by_cases hf : (a.frame_start - b.frame_start).toNat ≥ FRAME_DIFF_MAX ∨
          (b.expired_frame - a.expired_frame).toNat ≥ FRAME_DIFF_MAX
      · rw [if_pos hf]
        refine iff_of_false (by simp) (fun h => ?_)
        omega
      · rw [if_neg hf]
        refine iff_of_true rfl ?_
        omega

theorem inside_of_empty (h : a.Empty) : a.Inside b := by
  have hpers : a.Persistent → a.frame_range.toNat = 255 := persistent_iff.1
  intro f hf s hs
  rcases h with h | h
  · have h0 : a.frame_range.toNat = 0 := by rw [h]; rfl
    rcases hf with hf | hf
    · have := hpers hf
      omega
    · omega
  · have h0 : a.slot_range.toNat = 0 := by rw [h]; rfl
    have := hs.1
    have := hs.2
    omega

/-- An allocation with a frame and a minislot is inside another if both of its ranges are. -/
theorem inside_iff (h : ¬ a.Empty) : a.Inside b ↔ a.SlotsWithin b ∧ ∀ f, a.Covers f → b.Covers f := by
  have hr : a.frame_range.toNat ≠ 0 := by
    intro h0
    exact h (.inl (BitVec.eq_of_toNat_eq h0))
  have hs : a.slot_range.toNat ≠ 0 := by
    intro h0
    exact h (.inr (BitVec.eq_of_toNat_eq h0))
  constructor
  · intro hin
    have hcov : a.Covers a.frame_start := by
      right
      rw [BitVec.sub_self]
      exact Nat.pos_of_ne_zero hr
    obtain ⟨-, h1⟩ := hin a.frame_start hcov a.slot_start.toNat ⟨Nat.le_refl _, by omega⟩
    obtain ⟨-, h2⟩ := hin a.frame_start hcov (a.slot_start.toNat + a.slot_range.toNat - 1) ⟨by omega, by omega⟩
    refine ⟨⟨h1.1, ?_⟩, fun f hf => (hin f hf a.slot_start.toNat ⟨Nat.le_refl _, by omega⟩).1⟩
    have := h2.2
    omega
  · rintro ⟨h1, h2⟩ f hf s hs'
    refine ⟨h2 f hf, ?_, ?_⟩
    · exact Nat.le_trans h1.1 hs'.1
    · exact Nat.lt_of_lt_of_le hs'.2 h1.2

theorem gap_add (f : BitVec 12) :
    (f - b.frame_start).toNat = ((f - a.frame_start).toNat + a.gap b) % 4096 := by
  unfold gap
  rw [BitVec.toNat_sub, BitVec.toNat_sub, BitVec.toNat_sub]
  have := b.frame_start.isLt
  have := a.frame_start.isLt
  have := f.isLt
  omega

theorem covers_iff (h : ¬ a.Empty) (ha : a.Persistent ∨ a.frame_range.toNat ≤ PERSISTENCE_MAX)
    (hb : b.Persistent ∨ b.frame_range.toNat ≤ PERSISTENCE_MAX) :
    (∀ f, a.Covers f → b.Covers f) ↔
      b.Persistent ∨ ¬ a.Persistent ∧ a.gap b + a.frame_range.toNat ≤ b.frame_range.toNat := by
  have hmax : PERSISTENCE_MAX = 128 := rfl
  have hgap : a.gap b < 4096 := (a.frame_start - b.frame_start).isLt
  have hr : a.frame_range.toNat ≠ 0 := by
    intro h0
    exact h (.inl (BitVec.eq_of_toNat_eq h0))
  by_cases hbp : b.Persistent
  · exact iff_of_true (fun _ _ => .inl hbp) (.inl hbp)
  · have hb' : b.frame_range.toNat ≤ PERSISTENCE_MAX := hb.resolve_left hbp
    rw [or_iff_right hbp]
    have hcov : ∀ f, b.Covers f ↔ ((f - a.frame_start).toNat + a.gap b) % 4096 < b.frame_range.toNat := by
      intro f
      unfold Covers
      rw [or_iff_right hbp, gap_add (a := a) f]
    have hat : ∀ k < 4096, (a.frame_start + BitVec.ofNat 12 k - a.frame_start).toNat = k := by
      intro k hk
      rw [distance_ofNat, BitVec.sub_self]
      simp [hk]
    constructor
    · intro hall
      have hap : ¬ a.Persistent := by
        intro hap
        -- the frame at which `b` is over
        have := hall (a.frame_start + BitVec.ofNat 12 ((b.frame_range.toNat + 4096 - a.gap b) % 4096)) (.inl hap)
        rw [hcov, hat _ (Nat.mod_lt _ (by decide))] at this
        omega
      have ha' : a.frame_range.toNat ≤ PERSISTENCE_MAX := ha.resolve_left hap
      have h1 := hall (a.frame_start + BitVec.ofNat 12 0) (.inr (by rw [hat 0 (by decide)]; omega))
      have h2 := hall (a.frame_start + BitVec.ofNat 12 (a.frame_range.toNat - 1))
        (.inr (by rw [hat _ (by omega)]; omega))
      rw [hcov, hat _ (by decide)] at h1
      rw [hcov, hat _ (by omega)] at h2
      exact ⟨hap, by omega⟩
    · rintro ⟨hap, hle⟩ f hf
      rw [hcov]
      have := hf.resolve_left hap
      omega

/-- `is_in_between` tells whether `a` is inside `b`, exactly if the two are compared without being misled. -/
theorem in_between_agrees_iff (ha : a.Persistent ∨ a.frame_range.toNat ≤ PERSISTENCE_MAX)
    (hb : b.Persistent ∨ b.frame_range.toNat ≤ PERSISTENCE_MAX) :
    (a.is_in_between b = true ↔ a.Inside b) ↔ a.Compared b := by
  have hmax : PERSISTENCE_MAX = 128 := rfl
  have hdiff : FRAME_DIFF_MAX = 2047 := rfl
  have hgap : a.gap b < 4096 := (a.frame_start - b.frame_start).isLt
  rw [is_in_between_iff]
  unfold Compared
  by_cases he : a.Empty
  · simp only [he, inside_of_empty he, iff_true, not_true_eq_false, false_implies, and_true, true_implies]
  · rw [inside_iff he, covers_iff he ha hb]
    simp only [he, false_implies, true_and, not_false_eq_true, true_implies]
    rw [and_congr_right_iff]
    refine imp_congr_right fun _ => ?_
    have hpa : a.Persistent ↔ a.frame_range.toNat = 255 := persistent_iff
    have hpb : b.Persistent ↔ b.frame_range.toNat = 255 := persistent_iff
    unfold FramesPass
    rw [hpa, hpb] at *
    omega

end Alloc_base

/-! ## The marks and the comparison -/

namespace Bitmap

/-- An allocation of the window is marked if its minislots begin in the bitmap or all its frames are over, and
    two of them are compared rightly unless the comparison is misled. -/
theorem marks_and_between (b : Bitmap) (a c : Alloc_base) (ha : a.InWindow b.frame_base)
    (hc : c.InWindow b.frame_base) :
    (a.slot_start.toNat < b.nf_slot.toNat ∨ a.Expired b.frame_base → b.Marks a) ∧
      (∀ base f s, (b.init base).bit_get f s = false) ∧
      (a.Compared c → (a.is_in_between c = true ↔ a.Inside c)) :=
  ⟨cumulate_marks ha, bit_get_init b, (Alloc_base.in_between_agrees_iff ha.2 hc.2).2⟩

/-- A bitmap of four minislots in each frame. -/
def four (base : BitVec 12) : Bitmap := ⟨4, base, List.replicate (4 * FRAME_MAX) false, List.length_replicate⟩

/-- An allocation over the end of the frame numbers. -/
theorem marks_and_between_wrapped :
    (four 4095).Marks ⟨4090, 10, 1, 2⟩ ∧
      ((⟨4090, 10, 1, 2⟩ : Alloc_base).is_in_between ⟨4080, 32, 0, 4⟩ = true ↔
        (⟨4090, 10, 1, 2⟩ : Alloc_base).Inside ⟨4080, 32, 0, 4⟩) := by
  obtain ⟨h1, -, h2⟩ := marks_and_between (four 4095) ⟨4090, 10, 1, 2⟩ ⟨4080, 32, 0, 4⟩ (by decide) (by decide)
  exact ⟨h1 (.inl (by decide)), h2 (by decide)⟩

/-- An allocation behind the last minislot fails an assertion; and an allocation one frame before the start of
    a persistent one is not found in it, although the persistent one covers every frame. -/
theorem slot_and_persistence :
    (¬ ∀ (b : Bitmap) (a : Alloc_base), a.InWindow b.frame_base → b.Marks a) ∧
      ¬ ∀ (base : BitVec 12) (a c : Alloc_base), a.InWindow base → c.InWindow base →
        (a.is_in_between c = true ↔ a.Inside c) := by
  constructor
  · intro h
    obtain ⟨b', hb', -⟩ := h (four 0) ⟨0, 1, 4, 1⟩ (by decide)
    have hnone : (four 0).cumulate ⟨0, 1, 4, 1⟩ = none := rfl
    rw [hnone] at hb'
    cases hb'
  · intro h
    have hin := (h 0 ⟨0, 1, 0, 1⟩ ⟨1, 255, 0, 1⟩ (by decide) (by decide)).2 (fun f _ s hs => ⟨.inl rfl, hs⟩)
    exact absurd hin (by decide)

end Bitmap

end Mesh
