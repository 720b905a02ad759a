import Nctuns.Dvb.Proofs.SectionProofs
import Nctuns.Dvb.SctTable
import Nctuns.Lib.Blocks
import Mathlib.Tactic.Ring

/-!
# Proofs about superframe composition tables

A superframe is read back from its bytes with its frames numbered downwards. So a complete table has
what the sections carried that arrived, and that is the original table if each came once.
-/

namespace Dvb

open LittleEndian Outcome

variable {t : Sct} {e : SctSuperframeInfoEntry}

/-! ### Bytes -/

@[simp] theorem length_put_frame (f : SctFrameInfo) : f.put.length = 8 := by
  simp [SctFrameInfo.put]

@[simp] theorem length_put_superframe (s : SctSuperframeInfo) : s.put.length = 19 := by
  simp [SctSuperframeInfo.put]

theorem get_put_frame (f : SctFrameInfo) (rest : List UInt8) :
    SctFrameInfo.get (f.put ++ rest) = .ok (f, rest) := by
  have h1 : f.frame_id.toNat < 256 ^ 1 := f.frame_id.toNat_lt
  have h2 : f.frame_start_time.toNat < 256 ^ 4 := f.frame_start_time.toNat_lt
  have h3 : f.frame_centre_frequency_offset.toNat < 256 ^ 3 :=
    f.frame_centre_frequency_offset.isLt
  unfold SctFrameInfo.get SctFrameInfo.put
  simp only [List.append_assoc, word_bytes h1, word_bytes h2, word_bytes h3, bind_ok]
  simp

theorem get_put_superframe (s : SctSuperframeInfo) (rest : List UInt8) :
    SctSuperframeInfo.get (s.put ++ rest) = .ok (s, rest) := by
  have h1 : s.superframe_id.toNat < 256 ^ 1 := s.superframe_id.toNat_lt
  have h2 : s.uplink_polarization.toNat < 256 ^ 1 := s.uplink_polarization.toNat_lt
  have h3 : s.start_time_base_ext.toNat < 256 ^ 6 := s.start_time_base_ext.isLt
  have h4 : s.superframe_duration.toNat < 256 ^ 4 := s.superframe_duration.toNat_lt
  have h5 : s.superframe_centre_frequency.toNat < 256 ^ 4 := s.superframe_centre_frequency.toNat_lt
  have h6 : s.superframe_counter.toNat < 256 ^ 2 := s.superframe_counter.toNat_lt
  have h7 : s.frame_loop_count.toNat < 256 ^ 1 := s.frame_loop_count.toNat_lt
  unfold SctSuperframeInfo.get SctSuperframeInfo.put
  simp only [List.append_assoc, word_bytes h1, word_bytes h2, word_bytes h3, word_bytes h4,
    word_bytes h5, word_bytes h6, word_bytes h7, bind_ok]
  simp

theorem getFrames_put (fs q : List SctFrameInfoEntry) (rest : List UInt8) :
    SctSuperframeInfoEntry.getFrames fs.length q
        (fs.flatMap (fun f => f.frame_info.put) ++ rest) =
      .ok ((renumber fs).reverse ++ q, rest) := by
  induction fs generalizing q with
  | nil => rfl
  | cons f fs ih =>
    rw [List.flatMap_cons, List.append_assoc, List.length_cons, SctSuperframeInfoEntry.getFrames,
      get_put_frame, bind_ok]
    simp only
    rw [ih, renumber, List.reverse_cons, List.append_assoc]
    rfl

/-- The superframe that `to_table` makes of the bytes of `e`. -/
def SctSuperframeInfoEntry.rebuilt (e : SctSuperframeInfoEntry) : SctSuperframeInfoEntry where
  superframe_info := e.superframe_info
  frames := (renumber e.frames).reverse

theorem toInt_toInt8 (b : UInt8) :
    b.toInt8.toInt = if 2 * b.toNat < 256 then (b.toNat : Int) else b.toNat - 256 :=
  BitVec.toInt_eq_toNat_cond b.toBitVec

theorem toNat_ofInt8 {n : Nat} (h : n < 256) : (UInt8.ofInt n).toNat = n := by
  rw [UInt8.ofInt, UInt8.toNat_ofNat']
  omega

theorem toNat_ofInt32 {n : Nat} (h : n < 2 ^ 32) : (UInt32.ofInt n).toNat = n := by
  rw [UInt32.ofInt, UInt32.toNat_ofNat']
  omega

/-- A loop count of `n` frames, and what a section and the rebuilt table have for it. -/
theorem loop_count_eq {n : Nat} (h : e.get_frame_loop_count = (n + 1 : Nat)) :
    n + 1 ≤ 127 ∧ e.superframe_info.frame_loop_count = UInt8.ofInt (n + 1 : Nat) := by
  unfold SctSuperframeInfoEntry.get_frame_loop_count at h
  have hlt := e.superframe_info.frame_loop_count.toNat_lt
  rw [toInt_toInt8] at h
  have hle : n + 1 ≤ 127 ∧ e.superframe_info.frame_loop_count.toNat = n + 1 := by
    split at h <;> omega
  refine ⟨hle.1, UInt8.toNat_inj.1 ?_⟩
  rw [toNat_ofInt8 (by omega), hle.2]

/-- A superframe with a right loop count is read back with its frames numbered downwards. -/
theorem carries_sct (hn : e.get_frame_loop_count = e.frames.length) (hne : e.frames ≠ []) :
    sctFormat.Carries (fun e e' => e' = e.rebuilt) e := by
  obtain ⟨n, hlen⟩ : ∃ n, e.frames.length = n + 1 :=
    ⟨e.frames.length - 1, (Nat.sub_add_cancel (List.length_pos_iff.2 hne)).symm⟩
  rw [hlen] at hn
  obtain ⟨hle, hcount⟩ := loop_count_eq hn
  have hput : e.put = SctSuperframeInfo.put { e.superframe_info with frame_loop_count := UInt8.ofInt n } ++
      e.frames.flatMap fun f => f.frame_info.put := by
    have hne0 : e.get_frame_loop_count ≠ 0 := by rw [hn]; omega
    have hpred : e.get_frame_loop_count - 1 = n := by rw [hn]; omega
    simp only [SctSuperframeInfoEntry.put, if_pos hne0, hpred]
    rfl
  have hbytes : (e.frames.flatMap fun f => f.frame_info.put).length = 8 * (n + 1) := by
    rw [← hlen]
    exact Blocks.length_flatMap (fun f => length_put_frame f.frame_info) e.frames
  have hput_len : e.put.length = 19 + 8 * (n + 1) := by
    rw [hput, List.length_append, length_put_superframe, hbytes]
  refine ⟨?_, ?_, ?_, fun rest => ⟨e.rebuilt, ?_, rfl⟩⟩
  · show (UInt32.ofInt (19 + 8 * e.get_frame_loop_count)).toNat = e.put.length
    have hcast : (19 + 8 * e.get_frame_loop_count : Int) = (19 + 8 * (n + 1) : Nat) := by
      rw [hn]
      push_cast
      ring
    rw [hcast, toNat_ofInt32 (by omega), hput_len]
  · show 0 < e.put.length
    omega
  · show 9 + e.put.length + 1 < 4096
    omega
  · show SctSuperframeInfoEntry.get (e.put ++ rest) = _
    have hread : (UInt8.ofInt n).toNat + 1 = e.frames.length := by
      rw [toNat_ofInt8 (by omega), hlen]
    have hback : (UInt8.ofInt n).toInt8.toInt + 1 = (n + 1 : Nat) := by
      rw [toInt_toInt8, toNat_ofInt8 (by omega), if_pos (by omega)]
      push_cast
      rfl
    unfold SctSuperframeInfoEntry.get
    rw [hput, List.append_assoc, get_put_superframe]
    simp only [bind_ok, hread, getFrames_put]
    simp only [SctSuperframeInfoEntry.set_frame_loop_count,
      SctSuperframeInfoEntry.get_frame_loop_count, hback, ← hcount, List.append_nil]
    rfl

/-! ### Tables that are built -/

theorem Sct.WellFormed.new (network_id : UInt16) (version_number current_next_indicator : UInt8) :
    (Sct.new network_id version_number current_next_indicator).WellFormed := by
  constructor <;> simp [Sct.new]

/-- The comparison of ids works below 128, where a `char` is not negative. -/
theorem isKey_iff {id : UInt8} (hid : id.toNat < 128) (counter : UInt16) :
    e.isKey id counter = true ↔
      (e.superframe_info.superframe_id, e.superframe_info.superframe_counter) = (id, counter) := by
  have hlt := e.superframe_info.superframe_id.toNat_lt
  have hsign := toInt_toInt8 e.superframe_info.superframe_id
  simp only [SctSuperframeInfoEntry.isKey, Bool.and_eq_true, decide_eq_true_eq, beq_iff_eq,
    Prod.mk.injEq]
  constructor
  · rintro ⟨hid', rfl⟩
    refine ⟨UInt8.toNat_inj.1 ?_, rfl⟩
    split at hsign <;> omega
  · rintro ⟨rfl, rfl⟩
    rw [if_pos (by omega)] at hsign
    exact ⟨hsign.symm, rfl⟩

theorem Sct.WellFormed.add_superframe_info (h : t.WellFormed) (s : SctSuperframeInfo)
    (f : SctFrameInfo) (hid : s.superframe_id.toNat < 128) :
    (t.add_superframe_info s f).WellFormed := by
  unfold Sct.add_superframe_info
  split
  · exact h
  · rename_i hnew
    refine ⟨List.forall_mem_cons.2 ⟨rfl, h.loop_count⟩,
      List.forall_mem_cons.2 ⟨by simp, h.frames⟩, List.nodup_cons.2 ⟨fun hmem => hnew ?_, h.keys⟩⟩
    obtain ⟨e, he, hkey⟩ := List.mem_map.1 hmem
    exact List.any_eq_true.2 ⟨e, he, (isKey_iff hid _).2 hkey⟩

theorem Sct.WellFormed.add_frame_info (h : t.WellFormed) (id : UInt8) (counter : UInt16)
    (f : SctFrameInfo) (number : UInt8) (hroom : ∀ e ∈ t.entries, e.frames.length < 127) :
    (t.add_frame_info id counter f number).WellFormed := by
  have hadd : ∀ e ∈ t.entries,
      (Sct.addTo f number e).get_frame_loop_count = (Sct.addTo f number e).frames.length := by
    intro e he
    have hcount := h.loop_count e he
    unfold Sct.addTo
    split
    · exact hcount
    · have hlt := hroom e he
      have hcast : e.get_frame_loop_count + 1 = (e.frames.length + 1 : Nat) := by
        rw [hcount]
        rfl
      rw [hcast]
      show (UInt8.ofInt (e.frames.length + 1 : Nat)).toInt8.toInt = (e.frames.length + 1 : Nat)
      rw [toInt_toInt8, toNat_ofInt8 (by omega), if_pos (by omega)]
  have hkeys : ∀ es : List SctSuperframeInfoEntry,
      (modifyFirst (·.isKey id counter) (Sct.addTo f number) es).map (fun e =>
        (e.superframe_info.superframe_id, e.superframe_info.superframe_counter)) =
      es.map fun e => (e.superframe_info.superframe_id, e.superframe_info.superframe_counter) := by
    intro es
    induction es with
    | nil => rfl
    | cons e es ih =>
      unfold modifyFirst
      split
      · unfold Sct.addTo
        split <;> rfl
      · rw [List.map_cons, ih, List.map_cons]
  refine ⟨fun e' he' => ?_, fun e' he' => ?_, (hkeys t.entries).symm ▸ h.keys⟩
  · obtain ⟨e, he, rfl | rfl⟩ := mem_modifyFirst he'
    · exact h.loop_count _ he
    · exact hadd e he
  · obtain ⟨e, he, rfl | rfl⟩ := mem_modifyFirst he'
    · exact h.frames _ he
    · unfold Sct.addTo
      split
      · exact h.frames e he
      · simp [SctSuperframeInfoEntry.set_frame_loop_count]

/-! ### Complete tables -/

theorem Sct.WellFormed.carries (h : t.WellFormed) :
    ∀ e ∈ t.entries, sctFormat.Carries (fun e e' => e' = e.rebuilt) e :=
  fun e he => carries_sct (h.loop_count e he) (h.frames e he)

theorem framed_sct : sctFormat.Framed := ⟨rfl, by decide⟩

/-- What the table has that was put together from the entries `es`. -/
theorem contents_rebuilt {r : Sct} {es : List SctSuperframeInfoEntry}
    (h : List.Forall₂ (fun e e' => e' = e.rebuilt) es r.entries.reverse) :
    Sct.contents r = (es.map fun e =>
      (e.superframe_info, (renumber e.frames : Multiset SctFrameInfoEntry)) : List _) := by
  have hmap : r.entries.reverse = es.map SctSuperframeInfoEntry.rebuilt := by
    generalize r.entries.reverse = es' at h
    induction h with
    | nil => rfl
    | cons he _ ih => rw [List.map_cons, he, ih]
  have hentries : r.entries = (es.map SctSuperframeInfoEntry.rebuilt).reverse := by
    rw [← hmap, List.reverse_reverse]
  rw [Sct.contents, hentries, List.map_reverse, Multiset.coe_reverse, List.map_map]
  refine congrArg _ (List.map_congr_left fun e _ => ?_)
  simp [SctSuperframeInfoEntry.rebuilt]

/-- The contents are those of the table if the entries are, each once, and the numbering is kept. -/
theorem contents_eq_iff {es : List SctSuperframeInfoEntry} (h : t.WellFormed)
    (hsub : es ⊆ t.entries) :
    ((es.map fun e => (e.superframe_info, (renumber e.frames : Multiset SctFrameInfoEntry)) : List _) :
        Multiset (SctSuperframeInfo × Multiset SctFrameInfoEntry)) = t.contents ↔
      es.Perm t.entries ∧ t.NumberedDown := by
  have hkeys := h.keys
  have hnd : (t.entries.map fun e => e.superframe_info).Nodup := by
    have hcomp : (fun e : SctSuperframeInfoEntry =>
        (e.superframe_info.superframe_id, e.superframe_info.superframe_counter)) =
        (fun s : SctSuperframeInfo => (s.superframe_id, s.superframe_counter)) ∘
          fun e => e.superframe_info := rfl
    rw [hcomp, ← List.map_map] at hkeys
    exact hkeys.of_map _
  have hinj := List.inj_on_of_nodup_map hnd
  constructor
  · intro heq
    have hinfos : (es.map fun e => e.superframe_info).Perm
        (t.entries.map fun e => e.superframe_info) := by
      have hfst := congrArg (Multiset.map Prod.fst) heq
      simpa [Sct.contents, Function.comp_def] using hfst
    have hperm : es.Perm t.entries := by
      refine (List.perm_ext_iff_of_nodup (hinfos.nodup_iff.2 hnd).of_map hnd.of_map).2 fun e => ?_
      refine ⟨fun he => hsub he, fun he => ?_⟩
      obtain ⟨e', he', hee⟩ := List.mem_map.1 (hinfos.mem_iff.2 (List.mem_map.2 ⟨e, he, rfl⟩))
      rwa [← hinj (hsub he') he hee]
    refine ⟨hperm, fun e he => ?_⟩
    have hmem : (e.superframe_info, (renumber e.frames : Multiset SctFrameInfoEntry)) ∈
        t.contents := by
      rw [← heq]
      exact Multiset.mem_coe.2 (List.mem_map.2 ⟨e, hperm.mem_iff.2 he, rfl⟩)
    obtain ⟨e', he', hee⟩ := List.mem_map.1 (Multiset.mem_coe.1 hmem)
    obtain ⟨hinfo, hframes⟩ := Prod.mk.inj hee
    obtain rfl := hinj he' he hinfo
    exact (Multiset.coe_eq_coe.1 hframes).symm
  · rintro ⟨hperm, hdown⟩
    refine Multiset.coe_eq_coe.2 ((hperm.map _).trans (List.Perm.of_eq ?_))
    refine List.map_congr_left fun e he => ?_
    rw [Multiset.coe_eq_coe.2 (hdown e he)]

/-- A table reported complete has the superframes and frames of the original, each once, exactly if
    until then no section with a superframe came twice and the frames are numbered downwards. -/
theorem sct_reassembled_iff (h : t.WellFormed) {secs : List (TableSection Unit)}
    (hsecs : sctFormat.sections t = .ok secs) (as : List (Fin secs.length)) :
    (∀ r, sctFormat.reassemble (as.map secs.get) = .ok (some r) → Sct.contents r = t.contents) ↔
      ∀ pre, CompletedBy secs.length (as.map (·.val)) pre → OnceEach secs pre ∧ t.NumberedDown := by
  obtain ⟨gs, hcut⟩ := sections_cut framed_sct h.carries hsecs
  obtain ⟨r, hr, hcase⟩ := reassemble_spec framed_sct hcut h.carries as
  rw [hr]
  rw [← hcut.length] at hcase
  rcases hcase with ⟨pre, t', rfl, hpre, hall⟩ | ⟨rfl, hnot⟩
  · have hiff : Sct.contents t' = t.contents ↔ OnceEach secs pre ∧ t.NumberedDown := by
      rw [contents_rebuilt hall,
        contents_eq_iff h (by rw [← hcut.flatten]; exact gathered_subset gs pre),
        onceEach_iff hcut h.carries, ← hcut.flatten]
      refine and_congr_left fun _ => ⟨fun hperm k _ hne => ?_, gathered_perm_of_once⟩
      refine once_of_gathered_perm ?_ hperm hne
      rw [hcut.flatten]
      exact h.keys.of_map
    constructor
    · intro hright q hq
      rw [← hpre.unique hq]
      exact hiff.1 (hright t' rfl)
    · intro hcond r hr
      obtain rfl : t' = r := by simpa using hr
      exact hiff.2 (hcond pre hpre)
  · constructor
    · exact fun _ pre hpre => absurd hpre.covers hnot
    · intro _ r hr
      simp at hr

/-- What an `Except` turns into an option is its result. -/
theorem eq_ok_of_toOption {ε α : Type*} {x : Except ε α} {a : α} (h : x.toOption = some a) : x = .ok a := by
  cases x with
  | error e => cases h
  | ok b =>
    cases h
    rfl

/-- A table of superframes with `n` frames each, one superframe for each id. -/
def sctOf (n : Nat) (ids : List UInt8) : Sct where
  network_id := 1
  version_number := 0
  current_next_indicator := 1
  more := ()
  loop_count := ids.length
  entries := ids.map fun id =>
    { superframe_info := ⟨id, 0, 0, 0, 0, 0, UInt8.ofNat n⟩
      frames := (List.range n).map fun i => ⟨⟨id, 0, 0⟩, UInt8.ofNat (n - 1 - i)⟩ }

/-- Two superframes in two sections, of which the second one comes first. -/
theorem sct_reassembled_two :
    ∃ (secs : List (TableSection Unit)) (as : List (Fin secs.length)) (r : Sct),
      sctFormat.sections (sctOf 64 [1, 2]) = .ok secs ∧ as.map (·.val) = [1, 0] ∧
        sctFormat.reassemble (as.map secs.get) = .ok (some r) ∧
        Sct.contents r = (sctOf 64 [1, 2]).contents := by
  have htwo : (sctFormat.sections (sctOf 64 [1, 2])).toOption.map List.length = some 2 := by decide +kernel
  have hrun : ((sctFormat.sections (sctOf 64 [1, 2])).toOption.bind fun secs =>
      (sctFormat.reassemble secs.reverse).toOption.join).isSome = true := by decide +kernel
  obtain ⟨secs, hsecs, hlen⟩ := Option.map_eq_some_iff.1 htwo
  obtain ⟨s, s', rfl⟩ := List.length_eq_two.1 hlen
  rw [hsecs, Option.bind_some] at hrun
  obtain ⟨r, hr⟩ := Option.isSome_iff_exists.1 hrun
  have hsecs := eq_ok_of_toOption hsecs
  have hr := eq_ok_of_toOption (Option.join_eq_some_iff.1 hr)
  have hwf : (sctOf 64 [1, 2]).WellFormed := by constructor <;> decide
  refine ⟨[s, s'], [⟨1, by simp⟩, ⟨0, by simp⟩], r, hsecs, rfl, hr, (sct_reassembled_iff hwf hsecs
    [⟨1, by simp⟩, ⟨0, by simp⟩]).2 (fun pre hpre => ⟨?_, ?_⟩) r hr⟩
  · obtain rfl := completed_all (n := 2) (by decide) (List.Perm.swap 0 1 []) hpre
    rintro k x hx -
    obtain ⟨hk, -⟩ := List.getElem?_eq_some_iff.1 hx
    rcases Nat.le_one_iff_eq_zero_or_eq_one.1 (Nat.le_of_lt_succ hk) with rfl | rfl <;> rfl
  · unfold Sct.NumberedDown
    decide

theorem repeated_section_length :
    (match sctFormat.sections (sctOf 64 [1, 2]) with
      | .ok [s, s'] =>
        match sctFormat.reassemble [s, s, s'] with
        | .ok (some r) => r.entries.length
        | _ => 0
      | _ => 0) = 3 := by
  decide +kernel

/-- Two superframes in two sections: when the first section comes a second time before the other one,
    its superframe is in the complete table twice. -/
theorem repeated_section_duplicates :
    ∃ (secs : List (TableSection Unit)) (as : List (Fin secs.length)) (r : Sct),
      sctFormat.sections (sctOf 64 [1, 2]) = .ok secs ∧
        sctFormat.reassemble (as.map secs.get) = .ok (some r) ∧
        Sct.contents r ≠ (sctOf 64 [1, 2]).contents := by
  have hrun := repeated_section_length
  split at hrun
  · rename_i s s' hsecs
    split at hrun
    · rename_i r hr
      refine ⟨[s, s'], [⟨0, by simp⟩, ⟨0, by simp⟩, ⟨1, by simp⟩], r, hsecs, hr, fun heq => ?_⟩
      have hcard := congrArg Multiset.card heq
      simp [Sct.contents, hrun, sctOf] at hcard
    · cases hrun
  · cases hrun

end Dvb
