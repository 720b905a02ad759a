import Mathlib.Data.List.Perm.Lattice
import Nctuns.Opt.Contention
import Nctuns.Opt.Proofs.RecordsProofs

/-!
# The choice among the control packets of one tick

The smallest and the largest offset are searched for with a bound that is kept, so the same packet is
chosen every time. Random draws choose every packet once, but a burst that is moved keeps its duration.
-/

namespace Opt

namespace Obsw

variable {s t u : Obsw} {b : Burst} {seg draws : List Nat} {number : Nat}

/-! ## Random numbers -/

theorem mem_taken {k : Nat} (random_history : List Nat) :
    k ∈ taken number random_history draws ↔ k ∉ random_history ∧ ∃ draw ∈ draws, draw % number = k := by
  induction draws generalizing random_history with
  | nil => simp [taken]
  | cons draw draws ih =>
    unfold taken
    by_cases hold : draw % number ∈ random_history
    · rw [if_pos hold, ih]
      refine and_congr_right fun hk => ?_
      rw [List.exists_mem_cons_iff]
      exact (or_iff_right fun hdraw : draw % number = k => hk (hdraw ▸ hold)).symm
    · rw [if_neg hold, List.mem_cons, ih, List.exists_mem_cons_iff, List.mem_cons, not_or]
      by_cases hk : draw % number = k
      · subst hk
        simp [hold]
      · simp only [hk, Ne.symm hk, false_or, not_false_eq_true, true_and]

theorem nodup_taken (random_history : List Nat) : (taken number random_history draws).Nodup := by
  induction draws generalizing random_history with
  | nil => exact List.nodup_nil
  | cons draw draws ih =>
    unfold taken
    split
    · exact ih _
    · refine List.nodup_cons.2 ⟨fun hmem => ?_, ih _⟩
      exact ((mem_taken _).1 hmem).1 List.mem_cons_self

/-- If the draws go on until every number has come, each is taken once. -/
theorem taken_perm (hdraws : ∀ k < number, ∃ draw ∈ draws, draw % number = k) (hpos : 0 < number) :
    (taken number [] draws).Perm (List.range number) := by
  refine (List.perm_ext_iff_of_nodup (nodup_taken []) List.nodup_range).2 fun k => ?_
  rw [mem_taken, List.mem_range]
  refine ⟨?_, fun hk => ⟨List.not_mem_nil, hdraws k hk⟩⟩
  rintro ⟨-, draw, -, rfl⟩
  exact Nat.mod_lt _ hpos

/-! ## One choice -/

theorem Unique.control? (h : s.Unique) {c : Controlpkt} (hc : c ∈ s.contrlpkts) : s.control? c.id = some c := by
  cases hfind : s.control? c.id with
  | none => exact absurd (List.find?_eq_none.1 hfind c hc) (by simp)
  | some d =>
    obtain ⟨hd, hid⟩ := control?_some hfind
    rw [h.eq hd hc hid]

theorem Unique.map (h : s.Unique) {f : Controlpkt → Controlpkt} (hf : ∀ c, (f c).id = c.id)
    (ht : t.contrlpkts = s.contrlpkts.map f) : t.Unique := by
  have hids : s.contrlpkts.map (Controlpkt.id ∘ f) = s.contrlpkts.map Controlpkt.id :=
    List.map_congr_left fun c _ => hf c
  unfold Unique
  rw [ht, List.map_map, hids]
  exact h

/-- The record that is chosen, moved to the offset `o`. -/
def moveTo (id o : Nat) (c : Controlpkt) : Controlpkt := if c.id = id then { c with offset := o } else c

theorem moveTo_id (id o : Nat) (c : Controlpkt) : (moveTo id o c).id = c.id := by
  unfold moveTo
  split <;> rfl

/-- The record `T`, which has been dealt with, may move `U`. -/
def Contends (T U : Controlpkt) : Prop :=
  T.update = true ∧ T.burstid ≠ U.burstid ∧ T.nextport = U.nextport ∧ T.wavelength = U.wavelength

theorem u64_end {T : Controlpkt} (h : T.offset + T.reserve_dur < 2 ^ 64) :
    u64 (T.offset + T.reserve_dur) = T.offset + T.reserve_dur := by
  have hcast : ((T.offset : Int) + (T.reserve_dur : Int)) = ((T.offset + T.reserve_dur : Nat) : Int) := by
    omega
  rw [hcast]
  exact u64_of_lt h

theorem u64_le (m n : Nat) : u64 (m + n) ≤ m + n := by
  unfold u64
  omega

theorem pushBehind_still {id : Nat} {U : Controlpkt} (hu : u.Unique) (hU : U ∈ u.contrlpkts) (hid : U.id = id)
    (h : ∀ T ∈ u.contrlpkts, T.id ∈ seg → Contends T U → u64 (T.offset + T.reserve_dur) ≤ U.offset) :
    seg.foldl (pushBehind id) u = u := by
  induction seg with
  | nil => rfl
  | cons before seg ih =>
    have hstill : pushBehind id u before = u := by
      unfold pushBehind
      rw [← hid, hu.control? hU]
      cases hbefore : u.control? before with
      | none => rfl
      | some T =>
        obtain ⟨hT, hTid⟩ := control?_some hbefore
        refine if_neg ?_
        rintro ⟨hflag, hburst, hport, hwave, hlt⟩
        exact absurd (h T hT (hTid ▸ List.mem_cons_self) ⟨hflag, hburst, hport, hwave⟩) (Nat.not_le.2 hlt)
    rw [List.foldl_cons, hstill]
    exact ih fun T hT hmem => h T hT (List.mem_cons_of_mem _ hmem)

/-- Where times fit, the loop moves the chosen burst behind all that it contends with, and nothing
    else. -/
theorem pushBehind_moves {id : Nat} {U : Controlpkt} (hu : u.Unique) (hU : U ∈ u.contrlpkts) (hid : U.id = id)
    (hflag : U.update = false) (hdur : U.reserve_dur < 2 ^ 64)
    (hends : ∀ T ∈ u.contrlpkts, T.id ∈ seg → T.offset + T.reserve_dur < 2 ^ 32) {w : Obsw} {o : Nat}
    (hw : w.contrlpkts = u.contrlpkts.map (moveTo id o)) :
    ∃ o', o ≤ o' ∧ (seg.foldl (pushBehind id) w).contrlpkts = u.contrlpkts.map (moveTo id o') ∧
      (o' = o → seg.foldl (pushBehind id) w = w) ∧
      (seg.foldl (pushBehind id) w).select_candidate_method = w.select_candidate_method ∧
      ∀ T ∈ u.contrlpkts, T.id ∈ seg → Contends T U → T.offset + T.reserve_dur ≤ o' := by
  induction seg generalizing w o with
  | nil => exact ⟨o, Nat.le_refl o, hw, fun _ => rfl, rfl, fun _ _ h => absurd h List.not_mem_nil⟩
  | cons before seg ih =>
    have hwu : w.Unique := hu.map (moveTo_id id o) hw
    have hends' : ∀ T ∈ u.contrlpkts, T.id ∈ seg → T.offset + T.reserve_dur < 2 ^ 32 :=
      fun T hT hmem => hends T hT (List.mem_cons_of_mem _ hmem)
    have hfind : ∀ T ∈ u.contrlpkts, w.control? T.id = some (moveTo id o T) := by
      intro T hT
      have hmem : moveTo id o T ∈ w.contrlpkts := by
        rw [hw]
        exact List.mem_map_of_mem hT
      rw [← moveTo_id id o T]
      exact hwu.control? hmem
    have hchosen : w.control? id = some { U with offset := o } := by
      rw [← hid, hfind U hU]
      exact congrArg some (if_pos hid)
    rw [List.foldl_cons]
    by_cases hpush : ∃ T ∈ u.contrlpkts, T.id = before ∧ Contends T U ∧ o < T.offset + T.reserve_dur
    · obtain ⟨T, hT, rfl, hcontends, hlt⟩ := hpush
      have hne : T.id ≠ id := by
        intro hTid
        obtain rfl := hu.eq hT hU (hTid.trans hid.symm)
        rw [hcontends.1] at hflag
        cases hflag
      have hend := hends T hT List.mem_cons_self
      have hu64 := u64_end (Nat.lt_trans hend (by decide))
      have hu32 : u32 ((T.offset + T.reserve_dur : Nat) : Int) = T.offset + T.reserve_dur := by
        unfold u32
        omega
      have hstep : ∃ v, pushBehind id w T.id = v ∧
          v.contrlpkts = u.contrlpkts.map (moveTo id (T.offset + T.reserve_dur)) ∧
          v.select_candidate_method = w.select_candidate_method := by
        refine ⟨_, rfl, ?_⟩
        have hTw : w.control? T.id = some T := (hfind T hT).trans (congrArg some (if_neg hne))
        unfold pushBehind
        rw [hchosen, hTw]
        have hcond : T.update ∧ T.burstid ≠ U.burstid ∧ T.nextport = U.nextport ∧ T.wavelength = U.wavelength ∧
            u64 (T.offset + T.reserve_dur) > o := by
          rw [hu64]
          exact ⟨hcontends.1, hcontends.2.1, hcontends.2.2.1, hcontends.2.2.2, hlt⟩
        dsimp only
        rw [if_pos hcond]
        refine ⟨?_, rfl⟩
        show w.contrlpkts.map _ = _
        rw [hw, List.map_map]
        refine List.map_congr_left fun c hc => ?_
        simp only [Function.comp_apply, moveTo]
        by_cases hcid : c.id = id
        · obtain rfl := hu.eq hc hU (hcid.trans hid.symm)
          have hdiff : ((c.reserve_dur : Int) - (((T.offset + T.reserve_dur : Nat) : Int) -
              ((T.offset + T.reserve_dur : Nat) : Int))) = (c.reserve_dur : Int) := by omega
          simp only [if_pos hcid, hu64, hu32, hdiff, u64_of_lt hdur]
        · simp only [if_neg hcid]
      obtain ⟨v, hv, hvc, hvm⟩ := hstep
      obtain ⟨o', hle, hcs, -, hmethod, hall⟩ := ih hends' hvc
      rw [hv]
      refine ⟨o', hlt.le.trans hle, hcs, fun heq => ?_, hmethod.trans hvm, ?_⟩
      · omega
      · intro T' hT' hmem hcontends'
        rcases List.mem_cons.1 hmem with hsame | hmem
        · obtain rfl := hu.eq hT' hT hsame
          exact hle
        · exact hall T' hT' hmem hcontends'
    · have hstill : pushBehind id w before = w := by
        unfold pushBehind
        rw [hchosen]
        cases hbefore : w.control? before with
        | none => rfl
        | some T' =>
          obtain ⟨hT', hTid⟩ := control?_some hbefore
          rw [hw] at hT'
          obtain ⟨T, hT, rfl⟩ := List.mem_map.1 hT'
          refine if_neg ?_
          rintro ⟨hTflag, hburst, hport, hwave, hlt⟩
          by_cases hTU : T.id = id
          · obtain rfl := hu.eq hT hU (hTU.trans hid.symm)
            rw [moveTo, if_pos hTU, hflag] at hTflag
            cases hTflag
          · rw [moveTo, if_neg hTU] at hTflag hburst hport hwave hlt hTid
            refine hpush ⟨T, hT, hTid, ⟨hTflag, hburst, hport, hwave⟩, ?_⟩
            have hend := hends T hT (hTid ▸ List.mem_cons_self)
            rwa [u64_end (Nat.lt_trans hend (by decide))] at hlt
      obtain ⟨o', hle, hcs, heq, hmethod, hall⟩ := ih hends' hw
      rw [hstill]
      refine ⟨o', hle, hcs, heq, hmethod, ?_⟩
      intro T hT hmem hcontends
      rcases List.mem_cons.1 hmem with hsame | hmem
      · by_contra hnot
        exact hpush ⟨T, hT, hsame, hcontends, by omega⟩
      · exact hall T hT hmem hcontends

/-- Whatever the loop does, it does to the record of the chosen burst. -/
theorem pushBehind_foldl_records (id : Nat) (seg : List Nat) (s : Obsw) :
    ∃ f : Controlpkt → Controlpkt, (seg.foldl (pushBehind id) s).contrlpkts = s.contrlpkts.map f ∧
      (∀ c, (f c).id = c.id ∧ (f c).update = c.update) ∧ ∀ c, c.id ≠ id → f c = c := by
  induction seg generalizing s with
  | nil => exact ⟨fun c => c, (List.map_id _).symm, fun _ => ⟨rfl, rfl⟩, fun _ _ => rfl⟩
  | cons before seg ih =>
    have hone : ∃ f : Controlpkt → Controlpkt, (pushBehind id s before).contrlpkts = s.contrlpkts.map f ∧
        (∀ c, (f c).id = c.id ∧ (f c).update = c.update) ∧ ∀ c, c.id ≠ id → f c = c := by
      unfold pushBehind
      split
      · split
        · refine ⟨_, rfl, fun c => ?_, fun c hc => if_neg hc⟩
          split <;> exact ⟨rfl, rfl⟩
        · exact ⟨fun c => c, (List.map_id _).symm, fun _ => ⟨rfl, rfl⟩, fun _ _ => rfl⟩
      · exact ⟨fun c => c, (List.map_id _).symm, fun _ => ⟨rfl, rfl⟩, fun _ _ => rfl⟩
    obtain ⟨f, hf, hkeeps, hothers⟩ := hone
    obtain ⟨g, hg, hgkeeps, hgothers⟩ := ih (pushBehind id s before)
    refine ⟨fun c => g (f c), ?_, fun c => ?_, fun c hc => ?_⟩
    · rw [List.foldl_cons, hg, hf, List.map_map]
      rfl
    · exact ⟨(hgkeeps _).1.trans (hkeeps c).1, (hgkeeps _).2.trans (hkeeps c).2⟩
    · show g (f c) = c
      rw [hothers c hc, hgothers c hc]

/-- The state after the burst `id` has been chosen. -/
def chose (seg : List Nat) (id : Nat) (u : Obsw) : Obsw :=
  { seg.foldl (pushBehind id) { u with updatectl := some id } with
    contrlpkts := (seg.foldl (pushBehind id) { u with updatectl := some id }).contrlpkts.map fun c =>
      if c.id = id then { c with update := true } else c }

theorem update_record_succ (count bound : Nat) (random : List Nat) {id : Nat} {bound' : Nat}
    (hchosen : u.candidate seg number (random.headD 0) bound = (some id, bound')) {c : Controlpkt}
    (hc : u.control? id = some c) :
    update_record_of_control_pkt seg number (count + 1) bound random u =
      update_record_of_control_pkt seg number count bound' random.tail (u.chose seg id) := by
  obtain ⟨-, rfl⟩ := control?_some hc
  have hbind : (some c.id : Option Nat).bind u.control? = some c := hc
  rw [update_record_of_control_pkt, hchosen]
  simp only [hbind]
  rfl

theorem chose_records (seg : List Nat) (id : Nat) (u : Obsw) :
    ∃ f : Controlpkt → Controlpkt, (u.chose seg id).contrlpkts = u.contrlpkts.map f ∧
      (∀ c, (f c).id = c.id) ∧ (∀ c, c.id = id → (f c).update = true) ∧ ∀ c, c.id ≠ id → f c = c := by
  obtain ⟨f, hf, hkeeps, hothers⟩ := pushBehind_foldl_records id seg { u with updatectl := some id }
  refine ⟨fun c => if (f c).id = id then { f c with update := true } else f c, ?_, fun c => ?_, fun c hc => ?_,
    fun c hc => ?_⟩
  · show List.map _ _ = _
    rw [hf, List.map_map]
    rfl
  · dsimp only
    split <;> exact (hkeeps c).1
  · dsimp only
    rw [if_pos ((hkeeps c).1.trans hc)]
  · dsimp only
    rw [if_neg fun h => hc ((hkeeps c).1.symm.trans h)]
    exact hothers c hc

theorem chose_updatectl (seg : List Nat) (id : Nat) (u : Obsw) : (u.chose seg id).updatectl = some id :=
  pushBehind_foldl_updatectl id seg _

/-! ## A kept bound -/

section Search

variable {better : Nat → Nat → Prop} [DecidableRel better]

theorem search_best (hirrefl : ∀ x, ¬ better x x) (htrans : ∀ x y z, better x y → ¬ better z y → ¬ better z x)
    (cs : List Controlpkt) (found : Option Nat × Nat) :
    (∀ z, ¬ better z found.2 → ¬ better z (cs.foldl (search better) found).2) ∧
      ∀ c ∈ cs, c.update = false → ¬ better c.offset (cs.foldl (search better) found).2 := by
  induction cs generalizing found with
  | nil => exact ⟨fun _ h => h, fun _ h => absurd h List.not_mem_nil⟩
  | cons c cs ih =>
    obtain ⟨hbound, hall⟩ := ih (search better found c)
    rw [List.foldl_cons]
    by_cases hc : c.update = false ∧ better c.offset found.2
    · have hfound : search better found c = (some c.id, c.offset) := if_pos hc
      rw [hfound] at hbound hall ⊢
      refine ⟨fun z hz => hbound z (htrans _ _ _ hc.2 hz), fun d hd hflag => ?_⟩
      rcases List.mem_cons.1 hd with rfl | hd
      · exact hbound _ (hirrefl _)
      · exact hall d hd hflag
    · have hfound : search better found c = found := if_neg hc
      rw [hfound] at hbound hall ⊢
      refine ⟨hbound, fun d hd hflag => ?_⟩
      rcases List.mem_cons.1 hd with rfl | hd
      · exact hbound _ fun hbetter => hc ⟨hflag, hbetter⟩
      · exact hall d hd hflag

theorem search_nothing (cs : List Controlpkt) (found : Option Nat × Nat)
    (h : ∀ c ∈ cs, c.update = false → ¬ better c.offset found.2) : cs.foldl (search better) found = found := by
  induction cs with
  | nil => rfl
  | cons c cs ih =>
    have hc : search better found c = found :=
      if_neg fun hc => h c List.mem_cons_self hc.1 hc.2
    rw [List.foldl_cons, hc]
    exact ih fun d hd => h d (List.mem_cons_of_mem _ hd)

/-- The search starts with the bound and the choice of the one before. -/
def Searches (better : Nat → Nat → Prop) [DecidableRel better] (u : Obsw) : Prop :=
  ∀ seg number random bound, u.candidate seg number random bound =
    (seg.filterMap u.control?).foldl (search better) (u.updatectl, bound)

/-- Nothing is better than the bound, and only the record chosen last has been dealt with. -/
structure Stuck (better : Nat → Nat → Prop) (seg : List Nat) (bound last : Nat) (u : Obsw) : Prop where
  updatectl : u.updatectl = some last
  flagged : ∀ c ∈ u.contrlpkts, c.id ∈ seg → c.update = true → c.id = last
  beaten : ∀ c ∈ u.contrlpkts, c.id ∈ seg → c.update = false → ¬ better c.offset bound

theorem pushBehind_foldl_method (id : Nat) (seg : List Nat) (s : Obsw) :
    (seg.foldl (pushBehind id) s).select_candidate_method = s.select_candidate_method := by
  induction seg generalizing s with
  | nil => rfl
  | cons before seg ih =>
    rw [List.foldl_cons, ih]
    unfold pushBehind
    split
    · split <;> rfl
    · rfl

theorem chose_method (id : Nat) : (u.chose seg id).select_candidate_method = u.select_candidate_method :=
  pushBehind_foldl_method id seg { u with updatectl := some id }

theorem mem_filterMap_control? {c : Controlpkt} (hc : c ∈ seg.filterMap u.control?) :
    c ∈ u.contrlpkts ∧ c.id ∈ seg := by
  obtain ⟨id, hid, hcontrol⟩ := List.mem_filterMap.1 hc
  obtain ⟨hmem, rfl⟩ := control?_some hcontrol
  exact ⟨hmem, hid⟩

omit [DecidableRel better] in
/-- The same record is chosen again. -/
theorem Stuck.chose {bound last : Nat} (h : Stuck better seg bound last u) :
    Stuck better seg bound last (u.chose seg last) := by
  obtain ⟨f, hf, hid, hchosen, hothers⟩ := chose_records seg last u
  refine ⟨chose_updatectl _ _ _, ?_, ?_⟩
  · intro c' hc' hin hflag
    rw [hf] at hc'
    obtain ⟨c, hc, rfl⟩ := List.mem_map.1 hc'
    by_cases hlast : c.id = last
    · rw [hid, hlast]
    · rw [hothers c hlast] at hin hflag ⊢
      exact h.flagged c hc hin hflag
  · intro c' hc' hin hflag
    rw [hf] at hc'
    obtain ⟨c, hc, rfl⟩ := List.mem_map.1 hc'
    by_cases hlast : c.id = last
    · rw [hchosen c hlast] at hflag
      cases hflag
    · rw [hothers c hlast] at hin hflag ⊢
      exact h.beaten c hc hin hflag

theorem Stuck.run {bound last : Nat} (hsearch : ∀ u : Obsw, u.select_candidate_method = s.select_candidate_method →
    u.Searches better) (count : Nat) (random : List Nat) (hmethod : u.select_candidate_method = s.select_candidate_method)
    (h : Stuck better seg bound last u)
    (ht : update_record_of_control_pkt seg number count bound random u = .ok t) :
    ∀ c ∈ t.contrlpkts, c.id ∈ seg → c.update = true → c.id = last := by
  induction count generalizing u random with
  | zero =>
    obtain rfl : u = t := Except.ok.inj ht
    exact h.flagged
  | succ count ih =>
    have hchosen : u.candidate seg number (random.headD 0) bound = (some last, bound) := by
      rw [hsearch u hmethod, h.updatectl]
      refine search_nothing _ _ fun c hc hflag => ?_
      obtain ⟨hmem, hin⟩ := mem_filterMap_control? hc
      exact h.beaten c hmem hin hflag
    cases hcontrol : u.control? last with
    | none =>
      have hbind : (some last : Option Nat).bind u.control? = none := hcontrol
      rw [update_record_of_control_pkt, hchosen] at ht
      simp only [hbind] at ht
      cases ht
    | some c =>
      rw [update_record_succ count bound random hchosen hcontrol] at ht
      exact ih _ ((chose_method last).trans hmethod) h.chose ht

variable (better) in
/-- A search with a bound that is kept never gets to a second record. -/
theorem search_once (hirrefl : ∀ x, ¬ better x x) (htrans : ∀ x y z, better x y → ¬ better z y → ¬ better z x)
    (hsearch : ∀ u : Obsw, u.select_candidate_method = s.select_candidate_method → u.Searches better)
    (hunique : s.Unique) (count bound : Nat) (random : List Nat)
    (hfree : ∀ c ∈ s.contrlpkts, c.id ∈ seg → c.update = false)
    (ht : update_record_of_control_pkt seg number (count + 1) bound random s = .ok t) :
    ∃ last, ∀ c ∈ t.contrlpkts, c.id ∈ seg → c.update = true → c.id = last := by
  obtain ⟨hbound, hbest⟩ := search_best hirrefl htrans (seg.filterMap s.control?) (s.updatectl, bound)
  have hcandidate := hsearch s rfl seg number (random.headD 0) bound
  obtain ⟨found, hfound⟩ : ∃ found, (seg.filterMap s.control?).foldl (search better) (s.updatectl, bound) = found :=
    ⟨_, rfl⟩
  rw [hfound] at hcandidate hbest
  obtain ⟨chosen, bound'⟩ := found
  cases hchosen : chosen.bind s.control? with
  | none =>
    rw [update_record_of_control_pkt, hcandidate] at ht
    simp only [hchosen] at ht
    cases ht
  | some c =>
    obtain ⟨id, rfl, hcontrol⟩ := Option.bind_eq_some_iff.1 hchosen
    rw [update_record_succ count bound random hcandidate hcontrol] at ht
    obtain ⟨f, hf, hid, hflagged, hothers⟩ := chose_records seg id s
    have hstuck : Stuck better seg bound' id (s.chose seg id) := by
      refine ⟨chose_updatectl _ _ _, ?_, ?_⟩
      · intro c' hc' hin hflag
        rw [hf] at hc'
        obtain ⟨d, hd, rfl⟩ := List.mem_map.1 hc'
        by_contra hne
        rw [hid] at hne
        rw [hothers d hne] at hin hflag
        rw [hfree d hd hin] at hflag
        cases hflag
      · intro c' hc' hin hflag
        rw [hf] at hc'
        obtain ⟨d, hd, rfl⟩ := List.mem_map.1 hc'
        by_cases hlast : d.id = id
        · rw [hflagged d hlast] at hflag
          cases hflag
        · rw [hothers d hlast] at hin hflag ⊢
          exact hbest d (List.mem_filterMap.2 ⟨d.id, hin, hunique.control? hd⟩) hflag
    exact ⟨id, hstuck.run hsearch count _ (chose_method id) ht⟩

end Search

/-! ## Choosing in turn -/

/-- The record, when those of `done` have been chosen. -/
def flag (done : List Nat) (c : Controlpkt) : Controlpkt :=
  if c.id ∈ done then { c with update := true } else c

@[simp] theorem flag_toBurst (done : List Nat) (c : Controlpkt) : (flag done c).toBurst = c.toBurst := by
  unfold flag
  split <;> rfl

@[simp] theorem flag_id (done : List Nat) (c : Controlpkt) : (flag done c).id = c.id := by
  unfold flag
  split <;> rfl

@[simp] theorem flag_offset (done : List Nat) (c : Controlpkt) : (flag done c).offset = c.offset := by
  unfold flag
  split <;> rfl

@[simp] theorem flag_reserve_dur (done : List Nat) (c : Controlpkt) :
    (flag done c).reserve_dur = c.reserve_dur := by
  unfold flag
  split <;> rfl

theorem flag_update (done : List Nat) (c : Controlpkt) :
    (flag done c).update = true ↔ c.update = true ∨ c.id ∈ done := by
  unfold flag
  by_cases hdone : c.id ∈ done
  · rw [if_pos hdone]
    exact iff_of_true rfl (Or.inr hdone)
  · rw [if_neg hdone]
    exact (or_iff_left hdone).symm

theorem flag_of_not_mem {done : List Nat} {c : Controlpkt} (h : c.id ∉ done) : flag done c = c := if_neg h

theorem flag_append (done : List Nat) (id : Nat) (c : Controlpkt) :
    (if (flag done c).id = id then { flag done c with update := true } else flag done c) =
      flag (done ++ [id]) c := by
  rw [flag_id]
  by_cases hid : c.id = id
  · rw [if_pos hid]
    unfold flag
    rw [if_pos (List.mem_append.2 (Or.inr (List.mem_singleton.2 hid)))]
    split <;> rfl
  · rw [if_neg hid]
    unfold flag
    simp only [List.mem_append, List.mem_singleton, or_iff_left hid]

/-- The records are those of `v`, of which `done` have been chosen. -/
structure Still (v : Obsw) (done : List Nat) (u : Obsw) : Prop where
  contrlpkts : u.contrlpkts = v.contrlpkts.map (flag done)
  datapkts : u.datapkts = v.datapkts

/-- `T`, chosen first, does not move `U`. -/
def Passes (T U : Controlpkt) : Prop :=
  T.burstid ≠ U.burstid → T.nextport = U.nextport → T.wavelength = U.wavelength →
    T.offset + T.reserve_dur ≤ U.offset

theorem run_random {random : List Nat} (hmethod : u.select_candidate_method = .random)
    (hrandom : ∀ k ∈ random, k < number) {order : List Controlpkt}
    (horder : (random.map fun k => seg[k]?) = order.map fun c => some c.id)
    (hknown : ∀ c ∈ order, ∃ d ∈ u.contrlpkts, d.id = c.id) (bound : Nat) :
    update_record_of_control_pkt seg number random.length bound random u =
      .ok (order.foldl (fun u c => u.chose seg c.id) u) := by
  induction random generalizing u order with
  | nil =>
    obtain rfl : order = [] := List.map_eq_nil_iff.1 horder.symm
    rfl
  | cons k random ih =>
    cases order with
    | nil => cases horder
    | cons c order =>
      rw [List.map_cons, List.map_cons, List.cons.injEq] at horder
      have hchosen : u.candidate seg number ((k :: random).headD 0) bound = (some c.id, bound) := by
        unfold candidate
        rw [hmethod]
        show (seg[k % number]?, bound) = _
        rw [Nat.mod_eq_of_lt (hrandom k List.mem_cons_self), horder.1]
      obtain ⟨d, hd, hdid⟩ := hknown c List.mem_cons_self
      cases hcontrol : u.control? c.id with
      | none => exact absurd (List.find?_eq_none.1 hcontrol d hd) (by simpa using hdid)
      | some e =>
        rw [List.length_cons, update_record_succ random.length bound _ hchosen hcontrol, List.foldl_cons]
        refine ih ((chose_method c.id).trans hmethod) (fun j hj => hrandom j (List.mem_cons_of_mem _ hj)) horder.2 ?_
        intro c' hc'
        obtain ⟨d', hd', hdid'⟩ := hknown c' (List.mem_cons_of_mem _ hc')
        obtain ⟨f, hf, hid, -⟩ := chose_records seg c.id u
        rw [hf]
        exact ⟨f d', List.mem_map_of_mem hd', (hid d').trans hdid'⟩

/-- Later turns are about other records. -/
theorem foldl_chose_mem (order : List Controlpkt) {d : Controlpkt} (hd : d ∈ u.contrlpkts)
    (hother : ∀ c ∈ order, c.id ≠ d.id) :
    d ∈ (order.foldl (fun u c => u.chose seg c.id) u).contrlpkts := by
  induction order generalizing u with
  | nil => exact hd
  | cons c order ih =>
    obtain ⟨f, hf, -, -, hothers⟩ := chose_records seg c.id u
    refine ih ?_ fun c' hc' => hother c' (List.mem_cons_of_mem _ hc')
    rw [hf]
    exact List.mem_map.2 ⟨d, hd, hothers d (hother c List.mem_cons_self).symm⟩

section Turns

variable {v : Obsw} {done : List Nat}

theorem Still.unique (hv : v.Unique) (h : Still v done u) : u.Unique := hv.map (flag_id done) h.contrlpkts

theorem Still.mem (h : Still v done u) {c : Controlpkt} (hc : c ∈ v.contrlpkts) (hnew : c.id ∉ done) :
    c ∈ u.contrlpkts := by
  rw [h.contrlpkts]
  exact List.mem_map.2 ⟨c, hc, flag_of_not_mem hnew⟩

/-- Nothing has been moved for `U`. -/
theorem Still.chose (h : Still v done u) {id : Nat}
    (hfold : seg.foldl (pushBehind id) { u with updatectl := some id } = { u with updatectl := some id }) :
    Still v (done ++ [id]) (u.chose seg id) := by
  unfold Obsw.chose
  rw [hfold]
  refine ⟨?_, h.datapkts⟩
  show List.map _ u.contrlpkts = _
  rw [h.contrlpkts, List.map_map]
  exact List.map_congr_left fun c _ => flag_append done id c

variable (hv : v.Unique) (hfree : ∀ c ∈ v.contrlpkts, c.id ∈ seg → c.update = false)
include hv hfree

/-- If no burst has to be moved, none is. -/
theorem Still.run {order : List Controlpkt} (horder : ∀ c ∈ order, c ∈ v.contrlpkts)
    (hnodup : (done ++ order.map Controlpkt.id).Nodup) (hpasses : order.Pairwise Passes)
    (hdone : ∀ T ∈ v.contrlpkts, T.id ∈ done → ∀ U ∈ order, Passes T U) (h : Still v done u) :
    Still v (done ++ order.map Controlpkt.id) (order.foldl (fun u c => u.chose seg c.id) u) := by
  induction order generalizing u done with
  | nil => rwa [List.map_nil, List.append_nil]
  | cons U order ih =>
    rw [List.pairwise_cons] at hpasses
    have hassoc : done ++ (U :: order).map Controlpkt.id = (done ++ [U.id]) ++ order.map Controlpkt.id := by
      rw [List.map_cons, List.append_assoc, List.singleton_append]
    rw [hassoc] at hnodup ⊢
    have hnew : U.id ∉ done := fun hmem =>
      (List.nodup_append.1 (List.nodup_append.1 hnodup).1).2.2 _ hmem _ (List.mem_singleton_self _) rfl
    have hU := horder U List.mem_cons_self
    have hlast : Still v done { u with updatectl := some U.id } := ⟨h.contrlpkts, h.datapkts⟩
    refine ih (fun c hc => horder c (List.mem_cons_of_mem _ hc)) hnodup hpasses.2 ?_ (h.chose ?_)
    · intro T hT hmem W hW
      rcases List.mem_append.1 hmem with hmem | hmem
      · exact hdone T hT hmem W (List.mem_cons_of_mem _ hW)
      · obtain rfl := hv.eq hT hU (List.mem_singleton.1 hmem)
        exact hpasses.1 W hW
    · refine pushBehind_still (hlast.unique hv) (hlast.mem hU hnew) rfl ?_
      intro T' hT' hseg hcontends
      rw [hlast.contrlpkts] at hT'
      obtain ⟨T, hT, rfl⟩ := List.mem_map.1 hT'
      obtain ⟨hchosen, hne, hport, hwave⟩ := hcontends
      simp only [flag_id, flag_toBurst, flag_offset, flag_reserve_dur] at hseg hne hport hwave ⊢
      have hmem := ((flag_update _ _).1 hchosen).resolve_left fun hupdate => by
        rw [hfree T hT hseg] at hupdate
        cases hupdate
      exact (u64_le _ _).trans (hdone T hT hmem U List.mem_cons_self hne hport hwave)

/-- If each burst of the turns ends no later than before, none has been moved. -/
theorem Still.of_inside (hends : ∀ T ∈ v.contrlpkts, T.id ∈ seg → T.offset + T.reserve_dur < 2 ^ 32)
    {order : List Controlpkt} (horder : ∀ c ∈ order, c ∈ v.contrlpkts ∧ c.id ∈ seg)
    (hnodup : (done ++ order.map Controlpkt.id).Nodup) (hseg : ∀ id ∈ done, id ∈ seg) (h : Still v done u)
    (hinside : ∀ c ∈ order, ∀ d ∈ (order.foldl (fun u c => u.chose seg c.id) u).contrlpkts, d.id = c.id →
      d.offset + d.reserve_dur ≤ c.offset + c.reserve_dur) :
    Still v (done ++ order.map Controlpkt.id) (order.foldl (fun u c => u.chose seg c.id) u) ∧
      order.Pairwise Passes ∧ ∀ T ∈ v.contrlpkts, T.id ∈ done → ∀ U ∈ order, Passes T U := by
  induction order generalizing u done with
  | nil =>
    rw [List.map_nil, List.append_nil]
    exact ⟨h, List.Pairwise.nil, fun _ _ _ _ hU => absurd hU List.not_mem_nil⟩
  | cons U order ih =>
    have hassoc : done ++ (U :: order).map Controlpkt.id = (done ++ [U.id]) ++ order.map Controlpkt.id := by
      rw [List.map_cons, List.append_assoc, List.singleton_append]
    rw [hassoc] at hnodup ⊢
    obtain ⟨hfirst, -, hdisjoint⟩ := List.nodup_append.1 hnodup
    have hnew : U.id ∉ done := fun hmem =>
      (List.nodup_append.1 hfirst).2.2 _ hmem _ (List.mem_singleton_self _) rfl
    have hlater : ∀ c ∈ order, c.id ≠ U.id := fun c hc hid =>
      hdisjoint _ (List.mem_append.2 (Or.inr (List.mem_singleton_self _))) _ (List.mem_map_of_mem hc) hid.symm
    obtain ⟨hU, hUseg⟩ := horder U List.mem_cons_self
    have hlast : Still v done { u with updatectl := some U.id } := ⟨h.contrlpkts, h.datapkts⟩
    have hUlast := hlast.mem hU hnew
    have hUend := hends U hU hUseg
    have hlastends : ∀ T ∈ ({ u with updatectl := some U.id } : Obsw).contrlpkts, T.id ∈ seg →
        T.offset + T.reserve_dur < 2 ^ 32 := by
      intro T' hT' hmem
      rw [hlast.contrlpkts] at hT'
      obtain ⟨T, hT, rfl⟩ := List.mem_map.1 hT'
      rw [flag_id] at hmem
      rw [flag_offset, flag_reserve_dur]
      exact hends T hT hmem
    have hself : ({ u with updatectl := some U.id } : Obsw).contrlpkts =
        ({ u with updatectl := some U.id } : Obsw).contrlpkts.map (moveTo U.id U.offset) := by
      refine ((List.map_id _).symm.trans (List.map_congr_left fun c hc => ?_))
      unfold moveTo
      split
      · rename_i hid
        rw [(hlast.unique hv).eq hc hUlast hid]
        rfl
      · rfl
    obtain ⟨o, hle, hmoved, hstill, -, hpast⟩ := pushBehind_moves (hlast.unique hv) hUlast rfl
      (hfree U hU hUseg) (by omega) hlastends hself
    have hunmoved : o = U.offset := by
      have hmem : ∃ d ∈ (u.chose seg U.id).contrlpkts, d.id = U.id ∧ d.offset = o ∧
          d.reserve_dur = U.reserve_dur := by
        refine ⟨{ U with offset := o, update := true }, ?_, rfl, rfl, rfl⟩
        show _ ∈ List.map _ _
        rw [hmoved, List.map_map]
        refine List.mem_map.2 ⟨U, hUlast, ?_⟩
        simp only [Function.comp_apply, moveTo, if_true]
      obtain ⟨d, hd, hdid, hdo, hdd⟩ := hmem
      have hkept : d ∈ (order.foldl (fun u c => u.chose seg c.id) (u.chose seg U.id)).contrlpkts :=
        foldl_chose_mem order hd fun c hc hid => hlater c hc (hid.trans hdid)
      have hend := hinside U List.mem_cons_self d hkept hdid
      rw [hdo, hdd] at hend
      omega
    obtain ⟨hrun, hpairs, hpass⟩ := ih (fun c hc => horder c (List.mem_cons_of_mem _ hc)) hnodup
      (fun id hid => (List.mem_append.1 hid).elim (hseg id) fun hsame => List.mem_singleton.1 hsame ▸ hUseg)
      (h.chose (hstill hunmoved)) (fun c hc => hinside c (List.mem_cons_of_mem _ hc))
    refine ⟨hrun, List.pairwise_cons.2 ⟨fun W hW => ?_, hpairs⟩, fun T hT hmem W hW => ?_⟩
    · exact hpass U hU (List.mem_append.2 (Or.inr (List.mem_singleton_self _))) W hW
    · rcases List.mem_cons.1 hW with rfl | hW
      · intro hne hport hwave
        have hTmem : flag done T ∈ ({ u with updatectl := some W.id } : Obsw).contrlpkts := by
          rw [hlast.contrlpkts]
          exact List.mem_map_of_mem hT
        have hcontends : Contends (flag done T) W := by
          refine ⟨(flag_update _ _).2 (Or.inr hmem), ?_, ?_, ?_⟩ <;> rw [flag_toBurst] <;> assumption
        have hend := hpast _ hTmem (flag_id done T ▸ hseg _ hmem) hcontends
        rw [flag_offset, flag_reserve_dur, hunmoved] at hend
        exact hend
      · exact hpass T hT (List.mem_append.2 (Or.inl hmem)) W hW

end Turns

/-! ## The whole routine -/

theorem map_some_filterMap {α β : Type*} {f : α → Option β} (xs : List α) (h : ∀ x ∈ xs, (f x).isSome) :
    (xs.filterMap f).map some = xs.map f := by
  induction xs with
  | nil => rfl
  | cons x xs ih =>
    obtain ⟨y, hy⟩ := Option.isSome_iff_exists.1 (h x List.mem_cons_self)
    rw [List.filterMap_cons_some hy, List.map_cons, List.map_cons, hy,
      ih fun x' hx' => h x' (List.mem_cons_of_mem _ hx')]

theorem filterMap_getElem?_range {α : Type*} (xs : List α) :
    (List.range xs.length).filterMap (fun k => xs[k]?) = xs := by
  induction xs with
  | nil => rfl
  | cons x xs ih =>
    have hfirst : (fun k => (x :: xs)[k]?) 0 = some x := rfl
    rw [List.length_cons, List.range_succ_eq_map, List.filterMap_cons_some hfirst, List.filterMap_map]
    exact congrArg (List.cons x) ih

/-- The control packets of the tick in the order in which they are drawn. -/
def order (s : Obsw) (b : Burst) (draws : List Nat) : List Controlpkt :=
  (taken (s.group b).length [] draws).filterMap fun k => (s.group b)[k]?

theorem order_perm (hdraws : ∀ k < (s.group b).length, ∃ draw ∈ draws, draw % (s.group b).length = k)
    (hpos : 0 < (s.group b).length) : (s.order b draws).Perm (s.group b) := by
  have hperm := (taken_perm hdraws hpos).filterMap fun k => (s.group b)[k]?
  rwa [filterMap_getElem?_range] at hperm

theorem number_eq (s : Obsw) (b : Burst) : s.number_of_same_arrive_time b = (s.group b).length :=
  List.countP_eq_length_filter

theorem mem_group {c : Controlpkt} :
    c ∈ s.group b ↔ c ∈ s.contrlpkts ∧ c.have_found = false ∧ c.arrive_time = s.found_arrive_time b := by
  unfold group
  rw [List.mem_filter, decide_eq_true_eq]
  rfl

theorem Recorded.inGroup_iff (h : s.Recorded) {c : Controlpkt} (hc : c ∈ s.contrlpkts) :
    s.InGroup b c ↔ SameTick (s.found_arrive_time b) c := by
  refine ⟨fun hin => ?_, fun hsame => List.mem_map_of_mem (mem_group.2 ⟨hc, hsame⟩)⟩
  obtain ⟨d, hd, hid⟩ := List.mem_map.1 hin
  obtain rfl := h.unique.eq (mem_group.1 hd).1 hc hid
  exact (mem_group.1 hd).2

/-- The bursts have no tick of a wavelength of a port in common. -/
def Apart (c d : Controlpkt) : Prop :=
  c.nextport = d.nextport → c.wavelength = d.wavelength → Disjoint c.interval d.interval

theorem Apart.symm {c d : Controlpkt} (h : Apart c d) : Apart d c :=
  fun hport hwave => (h hport.symm hwave.symm).symm

theorem behind_iff (c d : Controlpkt) : Behind c d ↔ Passes c d ∧ (c.burstid = d.burstid → Apart c d) := by
  have hdisjoint : Disjoint c.interval d.interval ↔
      min (c.offset + c.reserve_dur) (d.offset + d.reserve_dur) ≤ max c.offset d.offset := Set.Ico_disjoint_Ico
  unfold Behind Passes Apart
  rw [hdisjoint]
  by_cases hburst : c.burstid = d.burstid
  · simp only [hburst, if_true, ne_eq, not_true_eq_false, false_imp_iff, true_and, true_imp_iff]
  · simp only [hburst, if_false, ne_eq, not_false_eq_true, true_imp_iff, false_imp_iff, and_true]

theorem Behind.apart {c d : Controlpkt} (h : Behind c d) : Apart c d := by
  rw [behind_iff] at h
  by_cases hburst : c.burstid = d.burstid
  · exact h.2 hburst
  · intro hport hwave
    refine Set.Ico_disjoint_Ico.2 ?_
    exact (min_le_left _ _).trans ((h.1 hburst hport hwave).trans (le_max_right _ _))

/-- The record is the same burst at the same times. -/
structure Alike (d c : Controlpkt) : Prop where
  toBurst : d.toBurst = c.toBurst
  id : d.id = c.id
  offset : d.offset = c.offset
  reserve_dur : d.reserve_dur = c.reserve_dur

theorem Alike.apart {c d c' d' : Controlpkt} (hc : Alike c' c) (hd : Alike d' d) : Apart c' d' ↔ Apart c d := by
  unfold Apart Controlpkt.interval
  rw [hc.toBurst, hc.offset, hc.reserve_dur, hd.toBurst, hd.offset, hd.reserve_dur]

theorem Recorded.group_map (h : s.Recorded) {f : Controlpkt → Controlpkt}
    (hf : t.contrlpkts = s.contrlpkts.map f) (hid : ∀ c, (f c).id = c.id) :
    (t.contrlpkts.filter fun c => s.InGroup b c) = (s.group b).map f := by
  rw [hf, List.filter_map]
  refine congrArg (List.map f) (List.filter_congr fun c hc => ?_)
  refine decide_eq_decide.2 (Iff.trans ?_ (h.inGroup_iff hc))
  unfold InGroup
  rw [hid]

theorem group_apart {f : Controlpkt → Controlpkt} (hf : ∀ c, Alike (f c) c) :
    ((s.group b).map f).Pairwise Apart ↔ (s.group b).Pairwise Apart := by
  rw [List.pairwise_map]
  exact ⟨fun happart => happart.imp fun {c d} => ((hf c).apart (hf d)).1,
    fun happart => happart.imp fun {c d} => ((hf c).apart (hf d)).2⟩

/-- Records that keep their times are as they should be when the bursts were apart before. -/
theorem Recorded.resolved (h : s.Recorded) {f : Controlpkt → Controlpkt} (hf : t.contrlpkts = s.contrlpkts.map f)
    (hkeeps : ∀ c, Alike (f c) c)
    (hdata : t.datapkts = s.datapkts) (happart : (s.group b).Pairwise Apart)
    (hselected : 1 < (s.group b).length → ∀ c ∈ s.group b, (f c).update = true) : s.Resolved t b := by
  have hkept : ∀ c ∈ s.group b, ∀ d ∈ t.contrlpkts, d.id = c.id → Alike d c := by
    intro c hc d' hd' hid
    rw [hf] at hd'
    obtain ⟨d, hd, rfl⟩ := List.mem_map.1 hd'
    obtain rfl := h.unique.eq hd (mem_group.1 hc).1 ((hkeeps d).id.symm.trans hid)
    exact hkeeps d
  have hstays : ∀ c ∈ s.group b, ∀ d ∈ t.contrlpkts, d.id = c.id →
      ¬ (d.offset ≠ c.offset ∨ d.reserve_dur ≠ c.reserve_dur) := by
    intro c hc d hd hid hmoved
    have halike := hkept c hc d hd hid
    exact hmoved.elim (fun hne => hne halike.offset) fun hne => hne halike.reserve_dur
  have hfilter := h.group_map (b := b) hf fun c => (hkeeps c).id
  refine ⟨?_, ?_, ?_, ?_⟩
  · intro hlen c hc hgroup
    have hmem : c ∈ t.contrlpkts.filter fun c => s.InGroup b c := List.mem_filter.2 ⟨hc, decide_eq_true hgroup⟩
    rw [hfilter] at hmem
    obtain ⟨d, hd, rfl⟩ := List.mem_map.1 hmem
    exact hselected hlen d hd
  · rw [hfilter]
    exact (group_apart hkeeps).2 happart
  · intro c hc d hd hid
    have halike := hkept c hc d hd hid
    rw [halike.offset, halike.reserve_dur]
    exact ⟨Nat.le_refl _, Nat.le_refl _, fun _ => rfl⟩
  · rw [hdata]
    refine List.forall₂_same.2 fun r _ => ⟨?_, fun _ => rfl⟩
    intro c hc d hd hid hmoved
    exact absurd hmoved (hstays c hc d hd hid)

theorem Called.mem {c : Burst} (h : s.Called c draws) : ∃ x ∈ s.group c, x.toBurst = c := by
  obtain ⟨x, hx, hfound, rfl⟩ := h.unfound
  cases hfind : s.contrlpkts.find? fun y => y.have_found = false ∧ y.toBurst = x.toBurst with
  | none => exact absurd (List.find?_eq_none.1 hfind x hx) (by simp [hfound])
  | some y =>
    have hy := List.find?_some hfind
    rw [decide_eq_true_eq] at hy
    have htick : s.found_arrive_time x.toBurst = y.arrive_time := by
      unfold found_arrive_time
      rw [hfind]
    exact ⟨y, mem_group.2 ⟨List.mem_of_find?_eq_some hfind, hy.1, htick.symm⟩, hy.2⟩

theorem found_alike (tick : Nat) (c : Controlpkt) : Alike (found tick c) c := by
  unfold found
  split <;> exact ⟨rfl, rfl, rfl, rfl⟩

theorem found_update (tick : Nat) (c : Controlpkt) : (found tick c).update = c.update := by
  unfold found
  split <;> rfl

theorem flag_alike (done : List Nat) (c : Controlpkt) : Alike (flag done c) c :=
  ⟨flag_toBurst done c, flag_id done c, flag_offset done c, flag_reserve_dur done c⟩

theorem Alike.trans {c d e : Controlpkt} (h : Alike e d) (h' : Alike d c) : Alike e c :=
  ⟨h.toBurst.trans h'.toBurst, h.id.trans h'.id, h.offset.trans h'.offset, h.reserve_dur.trans h'.reserve_dur⟩

theorem marked_contrlpkts (s : Obsw) (tick : Nat) :
    (s.marked tick).contrlpkts = s.contrlpkts.map (found tick) := rfl

theorem Recorded.free (h : s.Recorded) : ∀ c ∈ s.group b, c.update = false :=
  fun _ hc => (h.mem (mem_group.1 hc).1).2.2 (mem_group.1 hc).2.1

theorem Recorded.group_nodup (h : s.Recorded) : ((s.group b).map Controlpkt.id).Nodup :=
  h.unique.sublist (List.filter_sublist.map _)

/-- With random draws, the control packets are chosen in the order of the draws. -/
theorem Recorded.deal_random (h : s.Recorded) (hmethod : s.select_candidate_method = .random)
    (htick : s.found_arrive_time b ≠ 0) (hlen : 1 < (s.group b).length)
    (hdraws : ∀ k < (s.group b).length, ∃ draw ∈ draws, draw % (s.group b).length = k) :
    s.deal_control_pkt_with_same_arrive_time b (taken (s.group b).length [] draws) =
      .ok ((s.order b draws).foldl (fun u c => u.chose ((s.group b).map Controlpkt.id) c.id)
        (s.marked (s.found_arrive_time b))) := by
  have hperm := taken_perm hdraws (Nat.lt_of_succ_lt hlen)
  have hlt : ∀ k ∈ taken (s.group b).length [] draws, k < (s.group b).length :=
    fun k hk => List.mem_range.1 (hperm.subset hk)
  have hcount : (taken (s.group b).length [] draws).length = (s.group b).length := by
    rw [hperm.length_eq, List.length_range]
  rw [deal_eq, if_neg htick, number_eq, if_neg (Nat.ne_of_gt hlen), h.segment]
  show update_record_of_control_pkt ((s.group b).map Controlpkt.id) _ _ _ _ _ = _
  have hsome : ∀ k ∈ taken (s.group b).length [] draws, ((s.group b)[k]?).isSome := by
    intro k hk
    rw [List.getElem?_eq_getElem (hlt k hk)]
    rfl
  have horder : ((taken (s.group b).length [] draws).map fun k => ((s.group b).map Controlpkt.id)[k]?) =
      (s.order b draws).map fun c => some c.id := by
    have hmap := congrArg (List.map (Option.map Controlpkt.id)) (map_some_filterMap _ hsome)
    rw [List.map_map, List.map_map] at hmap
    refine Eq.trans (List.map_congr_left fun k _ => ?_) hmap.symm
    exact List.getElem?_map
  have hknown : ∀ c ∈ s.order b draws, ∃ d ∈ (s.marked (s.found_arrive_time b)).contrlpkts, d.id = c.id := by
    intro c hc
    have hmem := (mem_group.1 ((order_perm hdraws (Nat.lt_of_succ_lt hlen)).subset hc)).1
    exact ⟨found (s.found_arrive_time b) c, List.mem_map_of_mem hmem, (found_alike _ c).id⟩
  have hrun := run_random (show (s.marked (s.found_arrive_time b)).select_candidate_method = .random from hmethod)
    hlt horder hknown
  rw [hcount] at hrun
  exact hrun _

/-- The control packets of the order, found. -/
theorem found_order (hperm : (s.order b draws).Perm (s.group b)) :
    let order := (s.order b draws).map (found (s.found_arrive_time b))
    order.map Controlpkt.id = (s.order b draws).map Controlpkt.id ∧
      (order.Pairwise Passes ↔ (s.order b draws).Pairwise Passes) ∧
        ∀ c ∈ order, c ∈ (s.marked (s.found_arrive_time b)).contrlpkts ∧ c.id ∈ (s.group b).map Controlpkt.id := by
  intro order
  refine ⟨?_, ?_, ?_⟩
  · rw [List.map_map]
    exact List.map_congr_left fun c _ => (found_alike _ c).id
  · rw [List.pairwise_map]
    have hiff : ∀ c d, Passes (found (s.found_arrive_time b) c) (found (s.found_arrive_time b) d) ↔ Passes c d := by
      intro c d
      have hc := found_alike (s.found_arrive_time b) c
      have hd := found_alike (s.found_arrive_time b) d
      unfold Passes
      rw [hc.toBurst, hc.offset, hc.reserve_dur, hd.toBurst, hd.offset]
    exact ⟨fun hpairs => hpairs.imp fun {c d} => (hiff c d).1, fun hpairs => hpairs.imp fun {c d} => (hiff c d).2⟩
  · intro c' hc'
    obtain ⟨c, hc, rfl⟩ := List.mem_map.1 hc'
    have hmem := hperm.subset hc
    refine ⟨List.mem_map_of_mem (mem_group.1 hmem).1, ?_⟩
    rw [(found_alike _ c).id]
    exact List.mem_map_of_mem hmem

theorem foldl_found (tick : Nat) (order : List Controlpkt) (u : Obsw) :
    (order.map (found tick)).foldl (fun u c => u.chose seg c.id) u =
      order.foldl (fun u c => u.chose seg c.id) u := by
  rw [List.foldl_map]
  exact List.foldl_ext _ _ _ fun u c _ => congrArg (fun id => u.chose seg id) (found_alike tick c).id

theorem Recorded.marked_free (h : s.Recorded) : ∀ c ∈ (s.marked (s.found_arrive_time b)).contrlpkts,
    c.id ∈ (s.group b).map Controlpkt.id → c.update = false := by
  intro c' hc' hid
  obtain ⟨c, hc, rfl⟩ := List.mem_map.1 hc'
  obtain ⟨d, hd, hdid⟩ := List.mem_map.1 hid
  obtain rfl := h.unique.eq (mem_group.1 hd).1 hc (hdid.trans (found_alike _ c).id)
  exact (found_update _ d).trans (h.free d hd)

theorem marked_still (v : Obsw) : Still v [] v :=
  ⟨((List.map_congr_left fun _ _ => flag_of_not_mem List.not_mem_nil).trans (List.map_id _)).symm, rfl⟩

/-- If none has been moved, all is as it should be when the bursts were apart. -/
theorem Recorded.resolved_of_still (h : s.Recorded) (hperm : (s.order b draws).Perm (s.group b))
    (ht : Still (s.marked (s.found_arrive_time b)) ((s.order b draws).map Controlpkt.id) t)
    (happart : (s.group b).Pairwise Apart) : s.Resolved t b := by
  have hf : t.contrlpkts = s.contrlpkts.map fun c =>
      flag ((s.order b draws).map Controlpkt.id) (found (s.found_arrive_time b) c) := by
    rw [ht.contrlpkts, marked_contrlpkts, List.map_map]
    rfl
  refine h.resolved hf (fun c => (flag_alike _ _).trans (found_alike _ c)) ht.datapkts happart fun _ c hc => ?_
  refine (flag_update _ _).2 (Or.inr ?_)
  rw [(found_alike _ c).id]
  exact List.mem_map_of_mem (hperm.symm.subset hc)

theorem Recorded.resolves (h : s.Recorded) (hb : s.Called b draws) (hpeace : s.Peaceful b draws) :
    s.Resolves b draws := by
  obtain ⟨c, hc, -⟩ := hb.mem
  have hpos : 0 < (s.group b).length := List.length_pos_of_mem hc
  by_cases hlen : (s.group b).length ≤ 1
  · obtain ⟨d, hd⟩ := List.length_eq_one_iff.1 (Nat.le_antisymm hlen hpos)
    have happart : (s.group b).Pairwise Apart := by
      rw [hd]
      exact List.pairwise_singleton _ _
    have hnothing : ∀ {P : Prop}, 1 < (s.group b).length → P := fun hmany => absurd hlen (Nat.not_le.2 hmany)
    unfold Resolves
    rw [deal_eq]
    by_cases htick : s.found_arrive_time b = 0
    · rw [if_pos htick]
      exact ⟨s, rfl, h.resolved (List.map_id _).symm (fun _ => ⟨rfl, rfl, rfl, rfl⟩) rfl happart hnothing⟩
    · rw [if_neg htick, number_eq, if_pos (Nat.le_antisymm hlen hpos)]
      exact ⟨_, rfl, h.resolved (marked_contrlpkts s _) (found_alike _) rfl happart hnothing⟩
  · obtain ⟨htick, hmethod, hpairs⟩ := hpeace.resolve_left hlen
    have hdraws := hb.draws hmethod
    rw [number_eq] at hdraws
    have hperm := order_perm hdraws hpos
    obtain ⟨hids, hpasses, hmem⟩ := found_order hperm
    have hrun := Still.run ((h.unique).map (fun c => (found_alike _ c).id) (marked_contrlpkts s _)) h.marked_free
      (fun c hc => (hmem c hc).1) ?_ (hpasses.2 (hpairs.imp fun hcd => ((behind_iff _ _).1 hcd).1))
      (fun _ _ hnil => absurd hnil List.not_mem_nil) (marked_still _)
    · rw [List.nil_append, hids, foldl_found] at hrun
      have happart : (s.group b).Pairwise Apart :=
        (hperm.pairwise_iff fun hcd => hcd.symm).1 (hpairs.imp fun hcd => hcd.apart)
      unfold Resolves
      rw [number_eq, h.deal_random hmethod htick (Nat.not_le.1 hlen) hdraws]
      exact ⟨_, rfl, h.resolved_of_still hperm hrun happart⟩
    · rw [List.nil_append, hids]
      exact (hperm.map _).nodup_iff.2 h.group_nodup

/-- The rounds keep the numbers. -/
theorem update_record_ids (count bound : Nat) (random : List Nat)
    (ht : update_record_of_control_pkt seg number count bound random u = .ok t) :
    t.contrlpkts.map Controlpkt.id = u.contrlpkts.map Controlpkt.id := by
  induction count generalizing u bound random with
  | zero =>
    obtain rfl : u = t := Except.ok.inj ht
    rfl
  | succ count ih =>
    obtain ⟨found, hfound⟩ : ∃ found, u.candidate seg number (random.headD 0) bound = found := ⟨_, rfl⟩
    obtain ⟨chosen, bound'⟩ := found
    cases hchosen : chosen.bind u.control? with
    | none =>
      rw [update_record_of_control_pkt, hfound] at ht
      simp only [hchosen] at ht
      cases ht
    | some c =>
      obtain ⟨id, rfl, hcontrol⟩ := Option.bind_eq_some_iff.1 hchosen
      rw [update_record_succ count bound random hfound hcontrol] at ht
      obtain ⟨f, hf, hid, -⟩ := chose_records seg id u
      rw [ih _ _ ht, hf, List.map_map]
      exact List.map_congr_left fun c _ => hid c

/-- When every record of a group of several is flagged, no one record is the only one. -/
theorem Recorded.not_once (h : s.Recorded) (hlen : 1 < (s.group b).length)
    (hids : t.contrlpkts.map Controlpkt.id = s.contrlpkts.map Controlpkt.id)
    (hselected : ∀ c ∈ t.contrlpkts, s.InGroup b c → c.update = true) :
    ¬ ∃ last, ∀ c ∈ t.contrlpkts, c.id ∈ (s.group b).map Controlpkt.id → c.update = true → c.id = last := by
  rintro ⟨last, hlast⟩
  have hall : ∀ c ∈ s.group b, c.id = last := by
    intro c hc
    have hmem : c.id ∈ t.contrlpkts.map Controlpkt.id := by
      rw [hids]
      exact List.mem_map_of_mem (mem_group.1 hc).1
    obtain ⟨d, hd, hid⟩ := List.mem_map.1 hmem
    have hin : d.id ∈ (s.group b).map Controlpkt.id := hid ▸ List.mem_map_of_mem hc
    rw [← hid]
    exact hlast d hd hin (hselected d hd hin)
  have hnodup := h.group_nodup (b := b)
  cases hgroup : s.group b with
  | nil =>
    rw [hgroup] at hlen
    cases hlen
  | cons c cs =>
    cases cs with
    | nil =>
      rw [hgroup] at hlen
      exact Nat.lt_irrefl _ hlen
    | cons d cs =>
      rw [hgroup] at hnodup hall
      rw [List.map_cons, List.map_cons, List.nodup_cons] at hnodup
      refine hnodup.1 ?_
      rw [hall c List.mem_cons_self, ← hall d (List.mem_cons_of_mem _ List.mem_cons_self)]
      exact List.mem_cons_self

/-- The routine chooses one control packet only, unless numbers are drawn. -/
theorem Recorded.random_of_resolves (h : s.Recorded) (hlen : 1 < (s.group b).length)
    (hresolves : s.Resolves b draws) : s.found_arrive_time b ≠ 0 ∧ s.select_candidate_method = .random := by
  obtain ⟨t, ht, hresolved⟩ := hresolves
  have hselected := hresolved.selected hlen
  rw [deal_eq, number_eq, if_neg (Nat.ne_of_gt hlen), h.segment] at ht
  by_cases htick : s.found_arrive_time b = 0
  · rw [if_pos htick] at ht
    obtain rfl := Except.ok.inj ht
    obtain ⟨c, hc⟩ := List.exists_mem_of_length_pos (Nat.lt_of_succ_lt hlen)
    have hflag := hselected c (mem_group.1 hc).1 (List.mem_map_of_mem hc)
    rw [h.free c hc] at hflag
    cases hflag
  · rw [if_neg htick] at ht
    have hunique := h.unique.map (fun c => (found_alike (s.found_arrive_time b) c).id) (marked_contrlpkts s _)
    have hids : t.contrlpkts.map Controlpkt.id = s.contrlpkts.map Controlpkt.id := by
      rw [update_record_ids _ _ _ ht, marked_contrlpkts, List.map_map]
      exact List.map_congr_left fun c _ => (found_alike _ c).id
    obtain ⟨count, hcount⟩ := Nat.exists_eq_succ_of_ne_zero (Nat.ne_of_gt (Nat.lt_of_succ_lt hlen))
    have honce := h.not_once hlen hids hselected
    refine ⟨htick, ?_⟩
    rw [hcount] at ht
    cases hmethod : s.select_candidate_method with
    | random => rfl
    | minimumOffset =>
      refine absurd (search_once (· < ·) (fun x => Nat.lt_irrefl x) (fun x y z hxy hzy hzx => ?_)
        (fun u hu seg number random bound => ?_) hunique count _ _ h.marked_free ht) honce
      · exact hzy (Nat.lt_trans hzx hxy)
      · unfold candidate
        rw [hu.trans hmethod]
    | maximumOffset =>
      refine absurd (search_once (· > ·) (fun x => Nat.lt_irrefl x) (fun x y z hxy hzy hzx => ?_)
        (fun u hu seg number random bound => ?_) hunique count _ _ h.marked_free ht) honce
      · exact hzy (Nat.lt_trans hxy hzx)
      · unfold candidate
        rw [hu.trans hmethod]

/-- **The contention** of records is peaceful where it resolves. -/
theorem Recorded.peaceful (h : s.Recorded) (hb : s.Called b draws)
    (hends : ∀ c ∈ s.group b, c.offset + c.reserve_dur < 2 ^ 32) (hresolves : s.Resolves b draws) :
    s.Peaceful b draws := by
  refine or_iff_not_imp_left.2 fun hlen => ?_
  obtain ⟨htick, hmethod⟩ := h.random_of_resolves (Nat.not_le.1 hlen) hresolves
  refine ⟨htick, hmethod, ?_⟩
  have hdraws := hb.draws hmethod
  rw [number_eq] at hdraws
  have hpos := Nat.lt_of_succ_lt (Nat.not_le.1 hlen)
  have hperm := order_perm hdraws hpos
  obtain ⟨t, ht, hresolved⟩ := hresolves
  rw [number_eq, h.deal_random hmethod htick (Nat.not_le.1 hlen) hdraws] at ht
  obtain rfl := Except.ok.inj ht
  obtain ⟨hids, hpasses, hmem⟩ := found_order hperm
  have hunique := h.unique.map (fun c => (found_alike (s.found_arrive_time b) c).id) (marked_contrlpkts s _)
  have hfoundends : ∀ T ∈ (s.marked (s.found_arrive_time b)).contrlpkts, T.id ∈ (s.group b).map Controlpkt.id →
      T.offset + T.reserve_dur < 2 ^ 32 := by
    intro T' hT' hid
    obtain ⟨T, hT, rfl⟩ := List.mem_map.1 hT'
    obtain ⟨c, hc, hcid⟩ := List.mem_map.1 hid
    have halike := found_alike (s.found_arrive_time b) T
    have hsame : c = T := h.unique.eq (mem_group.1 hc).1 hT (hcid.trans halike.id)
    show (found (s.found_arrive_time b) T).offset + (found (s.found_arrive_time b) T).reserve_dur < 2 ^ 32
    rw [halike.offset, halike.reserve_dur, ← hsame]
    exact hends c hc
  have hnodup : ([] ++ ((s.order b draws).map (found (s.found_arrive_time b))).map Controlpkt.id).Nodup := by
    rw [List.nil_append, hids]
    exact (hperm.map _).nodup_iff.2 h.group_nodup
  have hinside := hresolved.inside
  rw [← foldl_found (s.found_arrive_time b)] at hinside
  obtain ⟨hstill, hpairs, -⟩ := Still.of_inside hunique h.marked_free hfoundends hmem hnodup
    (fun _ hnil => absurd hnil List.not_mem_nil) (marked_still _) (fun c' hc' d hd hid => by
      obtain ⟨c, hc, rfl⟩ := List.mem_map.1 hc'
      have halike := found_alike (s.found_arrive_time b) c
      rw [halike.offset, halike.reserve_dur]
      exact (hinside c (hperm.subset hc) d hd (hid.trans halike.id)).2.1)
  rw [List.nil_append, hids, foldl_found] at hstill
  have happart := hresolved.disjoint
  have hf := hstill.contrlpkts
  rw [marked_contrlpkts, List.map_map] at hf
  have hkeeps : ∀ c, Alike ((flag ((s.order b draws).map Controlpkt.id) ∘ found (s.found_arrive_time b)) c) c :=
    fun c => (flag_alike _ _).trans (found_alike _ c)
  rw [h.group_map hf fun c => (hkeeps c).id] at happart
  have horder : (s.order b draws).Pairwise Apart :=
    (hperm.pairwise_iff fun hcd => hcd.symm).2 ((group_apart hkeeps).1 happart)
  refine ((hpasses.1 hpairs).and horder).imp fun {c d} hcd => ?_
  exact (behind_iff c d).2 ⟨hcd.1, fun _ => hcd.2⟩

/-- Bursts of one tick are put behind one another where none has to be moved. -/
theorem run_resolves (drop : DropMethod) (select : SelectMethod) (processTime : Nat) (actions : List Action) :
    Run.Always step (fun s => ∀ b draws, s.Called b draws →
      (s.Peaceful b draws → s.Resolves b draws) ∧
        ((∀ c ∈ s.group b, c.offset + c.reserve_dur < 2 ^ 32) → s.Resolves b draws → s.Peaceful b draws))
      (init drop select processTime) actions :=
  (Run.Always.of_step (fun _ _ _ hs ht => step_recorded hs ht) (init_recorded _ _ _) actions).mono
    fun _ hs _ _ hb => ⟨hs.resolves hb, hs.peaceful hb⟩

/-- The second burst begins where the first one ends. -/
theorem run_resolves_behind :
    ∃ s, Run.exec step (init .dropAll .random 1)
        [.pass 1, .control ⟨⟨1, 1, 9, 1, 0⟩, 5, 0, 10⟩, .control ⟨⟨2, 2, 9, 1, 0⟩, 5, 10, 20⟩] = .ok s ∧
      s.Resolves ⟨1, 1, 9, 1, 0⟩ [0, 0, 1] := by
  obtain ⟨s, hs, hfacts⟩ : ∃ s, Run.exec step (init .dropAll .random 1)
        [.pass 1, .control ⟨⟨1, 1, 9, 1, 0⟩, 5, 0, 10⟩, .control ⟨⟨2, 2, 9, 1, 0⟩, 5, 10, 20⟩] = .ok s ∧
      (decide (∃ c ∈ s.contrlpkts, c.have_found = false ∧ c.toBurst = ⟨1, 1, 9, 1, 0⟩),
        s.number_of_same_arrive_time ⟨1, 1, 9, 1, 0⟩, decide (s.Peaceful ⟨1, 1, 9, 1, 0⟩ [0, 0, 1])) =
          (true, 2, true) := Run.exec_map (by decide +kernel)
  obtain ⟨hunfound, hrest⟩ := Prod.mk.inj hfacts
  obtain ⟨hnumber, hpeace⟩ := Prod.mk.inj hrest
  have hcalled : s.Called ⟨1, 1, 9, 1, 0⟩ [0, 0, 1] := by
    refine ⟨of_decide_eq_true hunfound, ?_, fun _ => ?_⟩
    · rw [hnumber]
      decide
    · rw [hnumber]
      decide
  exact ⟨s, hs, ((run_resolves _ _ _ _).exec hs _ _ hcalled).1 (of_decide_eq_true hpeace)⟩

/-- The second burst begins before the first one ends. It is moved behind it and keeps its duration. -/
theorem moved_burst_keeps_duration :
    ¬ Run.Always step (fun s => ∀ b draws, s.Called b draws → s.Resolves b draws) (init .dropAll .random 1)
      [.pass 1, .control ⟨⟨1, 1, 9, 1, 0⟩, 5, 0, 10⟩, .control ⟨⟨2, 2, 9, 1, 0⟩, 5, 5, 20⟩] := by
  intro h
  obtain ⟨s, hs, hfacts⟩ : ∃ s : Obsw, (∀ b draws, s.Called b draws → s.Resolves b draws) ∧
      (decide (∃ c ∈ s.contrlpkts, c.have_found = false ∧ c.toBurst = ⟨1, 1, 9, 1, 0⟩),
        s.number_of_same_arrive_time ⟨1, 1, 9, 1, 0⟩,
        (s.deal_control_pkt_with_same_arrive_time ⟨1, 1, 9, 1, 0⟩ (taken 2 [] [0, 1])).map fun t =>
          decide (∃ c ∈ s.group ⟨1, 1, 9, 1, 0⟩, ∃ d ∈ t.contrlpkts, d.id = c.id ∧
            c.offset + c.reserve_dur < d.offset + d.reserve_dur)) = (true, 2, .ok true) :=
    h.exec_map (by decide +kernel)
  obtain ⟨hunfound, hrest⟩ := Prod.mk.inj hfacts
  obtain ⟨hnumber, hmoved⟩ := Prod.mk.inj hrest
  have hcalled : s.Called ⟨1, 1, 9, 1, 0⟩ [0, 1] := by
    refine ⟨of_decide_eq_true hunfound, ?_, fun _ => ?_⟩
    · rw [hnumber]
      decide
    · rw [hnumber]
      decide
  obtain ⟨t, ht, hresolved⟩ := hs _ _ hcalled
  rw [hnumber] at ht
  rw [ht] at hmoved
  obtain ⟨c, hc, d, hd, hid, hlt⟩ := of_decide_eq_true (Except.ok.inj hmoved)
  exact absurd (hresolved.inside c hc d hd hid).2.1 (Nat.not_le.2 hlt)

end Obsw

end Opt
