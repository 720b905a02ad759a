import Nctuns.Lib.Outcome
import Nctuns.Switch.SwitchTable
import Mathlib.Data.List.Perm.Subperm

/-!
# Proofs about switch tables

The two tables are lists of different records in one memory. Every operation keeps that shape and
either takes records out of a table or appends one of a station that the table does not have.
-/

namespace Switch

open PtrChain Outcome

variable {π μ : Type} {s s' : Tables π} {t : Target} {ks pre post : List Nat}
  {l l' : Target → List Nat} {mt : Nat} {m : Mac}

/-! ### The shape of the tables -/

/-- `targetTbl` is the list of the records `ks`, of different stations. -/
structure IsTable (s : Tables π) (t : Target) (ks : List Nat) : Prop where
  list : IsList s.next (s.tbl t).head (s.tbl t).tail ks
  entrys : (s.tbl t).entrys = ks.length
  macs : (ks.map fun k => (s.record k).mac).Nodup
  lt : ∀ k ∈ ks, k < s.allocated

/-- Each table is a list, and no record is in both. -/
structure Shape (s : Tables π) (l : Target → List Nat) : Prop where
  table : ∀ t, IsTable s t (l t)
  disjoint : ∀ t t', t ≠ t' → ∀ k ∈ l t, k ∉ l t'

theorem IsTable.congr (h : IsTable s t ks) (htbl : s'.tbl t = s.tbl t)
    (hnext : ∀ k ∈ ks, s'.next k = s.next k)
    (hmac : ∀ k ∈ ks, (s'.record k).mac = (s.record k).mac) (hall : s.allocated ≤ s'.allocated) :
    IsTable s' t ks where
  list := by rw [htbl]; exact h.list.congr hnext
  entrys := by rw [htbl]; exact h.entrys
  macs := by rw [List.map_congr_left hmac]; exact h.macs
  lt k hk := Nat.lt_of_lt_of_le (h.lt k hk) hall

theorem IsTable.length_le (h : IsTable s t ks) : ks.length ≤ s.allocated := by
  have hsub : ks.Subperm (List.range s.allocated) :=
    List.subperm_of_subset h.list.chain.nodup fun k hk => List.mem_range.2 (h.lt k hk)
  simpa using hsub.length_le

/-- A table replaced, the other one as it was. -/
theorem Shape.replace (h : Shape s l) (hks : IsTable s' t ks)
    (hnew : ∀ t', t' ≠ t → ∀ k ∈ ks, k ∉ l t') (hother : ∀ t', t' ≠ t → IsTable s' t' (l t')) :
    Shape s' (Function.update l t ks) where
  table t' := by
    by_cases ht : t' = t
    · subst ht
      rw [Function.update_self]
      exact hks
    · rw [Function.update_of_ne ht]
      exact hother t' ht
  disjoint t₁ t₂ ht k hk := by
    by_cases h₁ : t₁ = t
    · subst h₁
      rw [Function.update_self] at hk
      rw [Function.update_of_ne ht.symm]
      exact hnew t₂ ht.symm k hk
    · rw [Function.update_of_ne h₁] at hk
      by_cases h₂ : t₂ = t
      · subst h₂
        rw [Function.update_self]
        exact fun hk' => hnew t₁ h₁ k hk' hk
      · rw [Function.update_of_ne h₂]
        exact h.disjoint t₁ t₂ ht k hk

theorem Shape.new (r : MapTbl π) : Shape (Tables.new r) fun _ => [] where
  table _ := ⟨⟨rfl, rfl⟩, rfl, by simp, by simp⟩
  disjoint := by simp

/-- Records only leave the tables, and the others keep their stations and ports. -/
structure Prunes (s s' : Tables π) (l l' : Target → List Nat) : Prop where
  shape : Shape s' l'
  sublist : ∀ t, (l' t).Sublist (l t)
  mac : ∀ k, (s'.record k).mac = (s.record k).mac
  port : ∀ k, (s'.record k).port = (s.record k).port

theorem Prunes.refl (h : Shape s l) : Prunes s s l l :=
  ⟨h, fun _ => List.Sublist.refl _, fun _ => rfl, fun _ => rfl⟩

theorem Prunes.trans {s'' : Tables π} {l'' : Target → List Nat} (h : Prunes s s' l l')
    (h' : Prunes s' s'' l' l'') : Prunes s s'' l l'' where
  shape := h'.shape
  sublist t := (h'.sublist t).trans (h.sublist t)
  mac k := (h'.mac k).trans (h.mac k)
  port k := (h'.port k).trans (h.port k)

/-! ### One operation at a time -/

/-- A search finds the only record of a station, and the record before it. -/
theorem search_spec (h : Shape s l) (m : Mac) (t : Target) :
    (s.search m t = .ok none ∧ ∀ k ∈ l t, (s.record k).mac ≠ m) ∨
      ∃ pre mt post, l t = pre ++ mt :: post ∧ (s.record mt).mac = m ∧
        (∀ k ∈ pre ++ post, (s.record k).mac ≠ m) ∧
        s.search m t = .ok (some (pre.getLast?, mt)) := by
  have ht := h.table t
  unfold Tables.search
  rcases ht.list.chain.find (fun k => decide ((s.record k).mac = m)) none ht.length_le with
    ⟨hf, hl⟩ | ⟨pre, mt, post, hl, -, hmt, hf⟩
  · rw [hf]
    exact .inl ⟨rfl, fun k hk => of_decide_eq_false (hl k hk)⟩
  · rw [hf]
    have hmt : (s.record mt).mac = m := of_decide_eq_true hmt
    refine .inr ⟨pre, mt, post, hl, hmt, ?_, by simp⟩
    have hmacs := ht.macs
    rw [hl, List.map_append, List.map_cons, List.nodup_middle, ← List.map_append] at hmacs
    intro k hk hkm
    exact (List.nodup_cons.1 hmacs).1 (List.mem_map.2 ⟨k, hk, hkm.trans hmt.symm⟩)

/-- What unlinking a record does to a table is all it does. -/
theorem Shape.unlink (h : Shape s l) (hl : l t = pre ++ mt :: post)
    (hlist : IsList s'.next (s'.tbl t).head (s'.tbl t).tail (pre ++ post))
    (hentrys : (s'.tbl t).entrys = (s.tbl t).entrys - 1)
    (htbl : ∀ t', t' ≠ t → s'.tbl t' = s.tbl t') (hnext : ∀ k, k ∉ l t → s'.next k = s.next k)
    (hrec : s'.record = s.record) (hall : s'.allocated = s.allocated) :
    Prunes s s' l (Function.update l t (pre ++ post)) := by
  have ht := h.table t
  have hsub : (pre ++ post).Sublist (l t) := by
    rw [hl]
    exact (List.sublist_cons_self mt post).append_left pre
  refine ⟨h.replace ⟨hlist, ?_, ?_, ?_⟩ ?_ ?_, fun t' => ?_, by simp [hrec], by simp [hrec]⟩
  · rw [hentrys, ht.entrys, hl]
    simp
    omega
  · rw [hrec]
    exact ht.macs.sublist (hsub.map _)
  · intro k hk
    rw [hall]
    exact ht.lt k (hsub.subset hk)
  · intro t' htt' k hk
    exact h.disjoint t t' htt'.symm k (hsub.subset hk)
  · intro t' htt'
    refine (h.table t').congr (htbl t' htt') (fun k hk => hnext k ?_) (by simp [hrec]) hall.ge
    exact h.disjoint t' t htt' k hk
  · by_cases htt' : t' = t
    · subst htt'
      simpa using hsub
    · simp [Function.update_of_ne htt']

/-- The record behind `pre` taken out of a table. -/
theorem delSwTbl_spec (h : Shape s l) (hl : l t = pre ++ mt :: post) :
    ∃ s', s.delSwTbl pre.getLast? mt t = .ok s' ∧
      Prunes s s' l (Function.update l t (pre ++ post)) ∧ s'.record = s.record ∧
      s'.allocated = s.allocated := by
  have ht := h.table t
  have hlist := ht.list
  have hentrys := ht.entrys
  have hnd := ht.list.chain.nodup
  rw [hl] at hlist hentrys hnd
  have hpos : ¬ (s.tbl t).entrys ≤ 0 := by
    rw [hentrys]
    simp
    omega
  have htbl {s' : Tables π} {tbl : SwTbl} (hs' : s'.tbl = Function.update s.tbl t tbl) :
      ∀ t', t' ≠ t → s'.tbl t' = s.tbl t' := fun t' htt' => by
    rw [hs', Function.update_of_ne htt']
  have hmem : mt ∈ l t := by simp [hl]
  unfold Tables.delSwTbl
  rw [if_neg hpos]
  rcases List.eq_nil_or_concat pre with rfl | ⟨pre, x, rfl⟩
  · have hhead : (s.tbl t).head = some mt := hlist.chain.1
    rcases post with - | ⟨y, post⟩
    · -- the only record
      have h1 : (s.tbl t).entrys = 1 := by simp [hentrys]
      simp only [h1, if_true]
      refine ⟨_, rfl, h.unlink hl ?_ ?_ (htbl rfl) (fun _ _ => rfl) rfl rfl, rfl, rfl⟩
      · simp [Tables.setTbl]
        exact ⟨rfl, rfl⟩
      · simp [Tables.setTbl, h1]
    · have h1 : (s.tbl t).entrys ≠ 1 := by
        rw [hentrys]
        simp
        omega
      simp only [if_neg h1, hhead, if_true]
      refine ⟨_, rfl, h.unlink hl ?_ ?_ (htbl rfl) (fun k hk => ?_) rfl rfl, rfl, rfl⟩
      · have hpop := (hhead ▸ hlist).pop (by simp)
        simpa [Tables.setTbl, Tables.link] using hpop
      · simp [Tables.setTbl, Tables.link]
      · exact Function.update_of_ne (ne_of_mem_of_not_mem hmem hk).symm _ _
  · have h1 : (s.tbl t).entrys ≠ 1 := by
      rw [hentrys]
      simp
      omega
    have hxmem : x ∈ l t := by simp [hl]
    have hhead : (s.tbl t).head ≠ some mt := by
      rw [hlist.head_eq]
      intro hmt
      have hin : mt ∈ pre ++ [x] := by
        rw [List.concat_eq_append] at hmt
        exact List.mem_of_mem_head? (by simpa using hmt)
      exact (List.nodup_append.1 hnd).2.2 mt (by simpa using hin) mt (by simp) rfl
    have hout : ∀ k, k ∉ l t → ∀ p q : Option Nat,
        Function.update (Function.update s.next x p) mt q k = s.next k := fun k hk p q => by
      rw [Function.update_of_ne (ne_of_mem_of_not_mem hmem hk).symm,
        Function.update_of_ne (ne_of_mem_of_not_mem hxmem hk).symm]
    simp only [if_neg h1, if_neg hhead, List.concat_eq_append, List.getLast?_concat] at hl hlist ⊢
    rcases post with - | ⟨y, post⟩
    · have htail : (s.tbl t).tail = some mt := by simp [hlist.tail]
      rw [if_pos htail]
      refine ⟨_, rfl, h.unlink hl ?_ ?_ (htbl rfl) (fun k hk => ?_) rfl rfl, rfl, rfl⟩
      · have hdrop : IsList s.next (s.tbl t).head (s.tbl t).tail (pre ++ [x, mt]) := by
          simpa using hlist
        simpa [Tables.setTbl, Tables.link] using hdrop.dropLast
      · simp [Tables.setTbl, Tables.link]
      · exact Function.update_of_ne (ne_of_mem_of_not_mem hxmem hk).symm _ _
    · have htail : (s.tbl t).tail ≠ some mt := by
        rw [hlist.tail]
        intro hmt
        have hin : mt ∈ y :: post := List.mem_of_getLast? (by simpa [List.getLast?_cons] using hmt)
        exact (List.nodup_cons.1 (List.nodup_append.1 hnd).2.1).1 hin
      rw [if_neg htail]
      refine ⟨_, rfl, h.unlink hl ?_ ?_ (htbl rfl) (fun k hk => hout k hk _ _) rfl rfl, rfl, rfl⟩
      · have hmid : IsList s.next (s.tbl t).head (s.tbl t).tail (pre ++ x :: mt :: (y :: post)) := by
          simpa using hlist
        simpa [Tables.setTbl, Tables.link] using hmid.remove_after (by simp)
      · simp [Tables.setTbl, Tables.link]

theorem refresh_spec (h : Shape s l) (mt : Nat) (timestamp : UInt64) :
    Prunes s (s.refresh mt timestamp) l l := by
  have hmac : ∀ k, ((s.refresh mt timestamp).record k).mac = (s.record k).mac := by
    intro k
    unfold Tables.refresh
    by_cases hk : k = mt <;> simp [hk]
  have hport : ∀ k, ((s.refresh mt timestamp).record k).port = (s.record k).port := by
    intro k
    unfold Tables.refresh
    by_cases hk : k = mt <;> simp [hk]
  refine ⟨⟨fun t => ?_, h.disjoint⟩, fun _ => List.Sublist.refl _, hmac, hport⟩
  exact (h.table t).congr rfl (fun _ _ => rfl) (fun k _ => hmac k) le_rfl

variable [DecidableEq π] {cfg : Config π μ} {port_ : Option π} {now : UInt64}

/-- `findSwTbl` finds the station on the port, or the table does not have the station afterwards. -/
theorem findSwTbl_spec (h : Shape s l) (cfg : Config π μ) (now : UInt64) (mac_ : Mac)
    (port_ : Option π) (t : Target) :
    ∃ s' l' found, s.findSwTbl cfg now mac_ port_ t = .ok (s', found) ∧ Prunes s s' l l' ∧
      (∀ t', t' ≠ t → l' t' = l t') ∧
      if found then ∃ k ∈ l' t, (s'.record k).mac = mac_ ∧ (s'.record k).port = port_
      else ∀ k ∈ l' t, (s'.record k).mac ≠ mac_ := by
  unfold Tables.findSwTbl
  rcases search_spec h mac_ t with ⟨hsearch, hnone⟩ | ⟨pre, mt, post, hl, hmac, hothers, hsearch⟩
  · rw [hsearch]
    exact ⟨s, l, false, rfl, .refl h, fun _ _ => rfl, by simpa using hnone⟩
  · rw [hsearch]
    have hmem : mt ∈ l t := by simp [hl]
    by_cases hport : (s.record mt).port = port_
    · cases t with
      | swTable =>
        have hr := refresh_spec h mt (now + cfg.flushInterval_)
        refine ⟨_, l, true, by simp [hport], hr, fun _ _ => rfl, ?_⟩
        exact ⟨mt, hmem, (hr.mac mt).trans hmac, (hr.port mt).trans hport⟩
      | pmntSwTable =>
        refine ⟨s, l, true, by simp [hport], .refl h, fun _ _ => rfl, ?_⟩
        exact ⟨mt, hmem, hmac, hport⟩
    · obtain ⟨s', hdel, hp, hrec, -⟩ := delSwTbl_spec h hl
      refine ⟨s', _, false, by simp [hport, hdel], hp, fun t' ht => ?_, ?_⟩
      · exact Function.update_of_ne ht _ _
      · simpa [hrec] using hothers

omit [DecidableEq π] in
/-- A table with one more record, of a station that it did not have. -/
theorem Shape.extend (h : Shape s l) {r : MapTbl π} (hr : ∀ k ∈ l t, (s.record k).mac ≠ r.mac)
    (hrec : s'.record = Function.update s.record s.allocated r)
    (hall : s'.allocated = s.allocated + 1) (htbl : ∀ t', t' ≠ t → s'.tbl t' = s.tbl t')
    (hnext : ∀ t', t' ≠ t → ∀ k ∈ l t', s'.next k = s.next k)
    (hentrys : (s'.tbl t).entrys = (s.tbl t).entrys + 1)
    (hlist : IsList s'.next (s'.tbl t).head (s'.tbl t).tail (l t ++ [s.allocated])) :
    Shape s' (Function.update l t (l t ++ [s.allocated])) := by
  have ht := h.table t
  have hlt : ∀ t', ∀ k ∈ l t', k ≠ s.allocated := fun t' k hk => ((h.table t').lt k hk).ne
  have hold : ∀ t', ∀ k ∈ l t', (s'.record k).mac = (s.record k).mac := by
    intro t' k hk
    rw [hrec, Function.update_of_ne (hlt t' k hk)]
  refine h.replace ⟨hlist, ?_, ?_, ?_⟩ ?_ ?_
  · rw [hentrys, ht.entrys]
    simp
  · rw [List.map_append, List.map_congr_left (hold t)]
    refine List.nodup_append.2 ⟨ht.macs, List.nodup_singleton _, ?_⟩
    intro a ha b hb
    obtain ⟨k, hk, rfl⟩ := List.mem_map.1 ha
    rw [hrec, List.map_singleton, Function.update_self, List.mem_singleton] at hb
    exact hb ▸ hr k hk
  · intro k hk
    rw [hall]
    rcases List.mem_append.1 hk with hk | hk
    · exact Nat.lt_succ_of_lt (ht.lt k hk)
    · exact List.mem_singleton.1 hk ▸ Nat.lt_succ_self _
  · intro t' htt' k hk
    rcases List.mem_append.1 hk with hk | hk
    · exact h.disjoint t t' htt'.symm k hk
    · exact fun hk' => hlt t' k hk' (List.mem_singleton.1 hk)
  · intro t' htt'
    exact (h.table t').congr (htbl t' htt') (hnext t' htt') (hold t') (by omega)

omit [DecidableEq π] in
/-- A record of a station that the table does not have, appended. -/
theorem append_spec (h : Shape s l) {r : MapTbl π} (hr : ∀ k ∈ l t, (s.record k).mac ≠ r.mac) :
    Shape (s.append t r) (Function.update l t (l t ++ [s.allocated])) ∧
      (s.append t r).record = Function.update s.record s.allocated r := by
  have hlist := (h.table t).list
  have hlt : ∀ t', ∀ k ∈ l t', k ≠ s.allocated := fun t' k hk => ((h.table t').lt k hk).ne
  have htbl (s' : Tables π) (tbl : SwTbl) (hs' : s'.tbl = Function.update s.tbl t tbl) :
      ∀ t', t' ≠ t → s'.tbl t' = s.tbl t' := fun t' htt' => by
    rw [hs', Function.update_of_ne htt']
  unfold Tables.append
  rcases List.eq_nil_or_concat (l t) with hnil | ⟨ks, x, hks⟩
  · have hhead : (s.tbl t).head = none := by simp [hlist.head_eq, hnil]
    simp only [hhead]
    refine ⟨h.extend hr rfl rfl (htbl _ _ rfl) ?_ ?_ ?_, rfl⟩
    · intro t' _ k hk
      exact Function.update_of_ne (hlt t' k hk) _ _
    · simp [Tables.setTbl]
    · rw [hnil]
      simp only [Tables.setTbl, Function.update_self]
      exact ⟨⟨rfl, by simp⟩, rfl⟩
  · rw [List.concat_eq_append] at hks
    have hx : x ∈ l t := by simp [hks]
    have htail : (s.tbl t).tail = some x := by simp [hlist.tail, hks]
    obtain ⟨a, ha⟩ : ∃ a, (s.tbl t).head = some a := by
      rw [hlist.head_eq, hks]
      cases ks with
      | nil => exact ⟨x, rfl⟩
      | cons a ks => exact ⟨a, rfl⟩
    simp only [ha, htail]
    refine ⟨h.extend hr rfl rfl (htbl _ _ rfl) ?_ ?_ ?_, rfl⟩
    · intro t' htt' k hk
      have hkx : k ≠ x := fun he => h.disjoint t' t htt' k hk (he ▸ hx)
      simp only [Tables.setTbl, Tables.link]
      rw [Function.update_of_ne hkx, Function.update_of_ne (hlt t' k hk)]
    · simp [Tables.setTbl]
    · have hnew : s.allocated ∉ l t := fun hk => hlt t _ hk rfl
      have hnull : IsList (Function.update s.next s.allocated none) (s.tbl t).head (some x) (l t) :=
        htail ▸ hlist.congr fun k hk => Function.update_of_ne (hlt t k hk) _ _
      have hsnoc := hnull.snoc hnew (Function.update_self _ _ _)
      simpa [Tables.setTbl, Tables.link, ha] using hsnoc

/-! ### Stations and their ports -/

/-- A table has the station `m` on the port `p`. -/
def HasPort (s : Tables π) (l : Target → List Nat) (t : Target) (m : Mac) (p : π) : Prop :=
  ∃ k ∈ l t, (s.record k).mac = m ∧ (s.record k).port = some p

omit [DecidableEq π] in
theorem Prunes.hasPort {p : π} (h : Prunes s s' l l') (hp : HasPort s' l' t m p) :
    HasPort s l t m p := by
  obtain ⟨k, hk, hm, hkp⟩ := hp
  exact ⟨k, (h.sublist _).subset hk, (h.mac k).symm.trans hm, (h.port k).symm.trans hkp⟩

omit [DecidableEq π] in
/-- The only record of a station has its port. -/
theorem HasPort.port_eq {p : π} {k : Nat} (hp : HasPort s l t m p) (h : Shape s l) (hk : k ∈ l t)
    (hm : (s.record k).mac = m) : (s.record k).port = some p := by
  obtain ⟨k', hk', hm', hp'⟩ := hp
  have hkk : k' = k := List.inj_on_of_nodup_map (h.table t).macs hk' hk (hm'.trans hm.symm)
  exact hkk ▸ hp'

omit [DecidableEq π] in
/-- `findport` finds the port that the table has for the station. -/
theorem findport_spec (h : Shape s l) (m : Mac) (t : Target) :
    ∃ r, s.findport m t = .ok r ∧ ∀ p, r = some p ↔ HasPort s l t m p := by
  unfold Tables.findport
  rcases search_spec h m t with ⟨hsearch, hnone⟩ | ⟨pre, mt, post, hl, hmac, -, hsearch⟩
  · refine ⟨none, by simp [hsearch], fun p => ⟨fun hp => absurd hp (by simp), ?_⟩⟩
    rintro ⟨k, hk, hm, -⟩
    exact absurd hm (hnone k hk)
  · have hmem : mt ∈ l t := by simp [hl]
    exact ⟨(s.record mt).port, by simp [hsearch], fun p =>
      ⟨fun hp => ⟨mt, hmem, hmac, hp⟩, fun hp => hp.port_eq h hmem hmac⟩⟩

omit [DecidableEq π] in
theorem findport_iff (h : Shape s l) (m : Mac) (t : Target) (p : π) :
    s.findport m t = .ok (some p) ↔ HasPort s l t m p := by
  obtain ⟨r, hr, hp⟩ := findport_spec h m t
  rw [hr]
  exact ⟨fun hrp => (hp p).1 (Except.ok.inj hrp), fun hh => congrArg Except.ok ((hp p).2 hh)⟩

omit [DecidableEq π] in
theorem append_hasPort (h : Shape s l) {r : MapTbl π} {t' : Target} {p : π}
    (hp : HasPort (s.append t r) (Function.update l t (l t ++ [s.allocated])) t' m p) 
    (hr : ∀ k ∈ l t, (s.record k).mac ≠ r.mac) :
    t' = t ∧ m = r.mac ∧ r.port = some p ∨ HasPort s l t' m p ∧ (t' = t → m ≠ r.mac) := by
  obtain ⟨k, hk, hm, hkp⟩ := hp
  rw [(append_spec h hr).2] at hm hkp
  have hlt : ∀ k ∈ l t', k ≠ s.allocated := fun k hk => ((h.table t').lt k hk).ne
  by_cases ht : t' = t
  · subst ht
    rw [Function.update_self] at hk
    rcases List.mem_append.1 hk with hk | hk
    · rw [Function.update_of_ne (hlt k hk)] at hm hkp
      exact .inr ⟨⟨k, hk, hm, hkp⟩, fun _ => hm ▸ hr k hk⟩
    · rw [List.mem_singleton.1 hk, Function.update_self] at hm hkp
      exact .inl ⟨rfl, hm.symm, hkp⟩
  · rw [Function.update_of_ne ht] at hk
    rw [Function.update_of_ne (hlt k hk)] at hm hkp
    exact .inr ⟨⟨k, hk, hm, hkp⟩, fun he => absurd he ht⟩

/-- A station that neither table has is appended while there is room. -/
theorem addSwTbl_new {mac_ : Mac} {p : SwPort π μ} (h : Shape s l)
    (hroom : (s.tbl t).entrys < SW_TBL_MAX_ENTRYS)
    (hnew : ∀ t', ∀ k ∈ l t', (s.record k).mac ≠ mac_)
    (hp : cfg.PortList.find? (fun p => decide (some p.port = port_)) = some p) :
    s.addSwTbl cfg now mac_ port_ t =
      .ok (s.append t ⟨mac_, port_, p.portNum, now + cfg.flushInterval_⟩) := by
  have hnone : ∀ t', s.findSwTbl cfg now mac_ port_ t' = .ok (s, false) := by
    intro t'
    unfold Tables.findSwTbl
    rcases search_spec h mac_ t' with ⟨hsearch, -⟩ | ⟨pre, mt, post, hl, hmac, -, -⟩
    · rw [hsearch]
      rfl
    · exact absurd hmac (hnew t' mt (by simp [hl]))
  unfold Tables.addSwTbl
  rw [if_neg (not_le.2 hroom), hnone t]
  simp [hnone, hp]

/-- `addSwTbl` leaves a full table as it is. Otherwise the table has the station on no other port
    afterwards, and no other station that it did not have. -/
theorem addSwTbl_spec (h : Shape s l) (cfg : Config π μ) (now : UInt64) (mac_ : Mac)
    (port_ : Option π) (t : Target) :
    Ends (fun _ => (s.tbl t).entrys < SW_TBL_MAX_ENTRYS)
      (fun s' => SW_TBL_MAX_ENTRYS ≤ (s.tbl t).entrys ∧ s' = s ∨
        (s.tbl t).entrys < SW_TBL_MAX_ENTRYS ∧ ∃ l', Shape s' l' ∧ ∀ t' m p, HasPort s' l' t' m p →
          t' = t ∧ m = mac_ ∧ port_ = some p ∨ HasPort s l t' m p ∧ (t' = t → m ≠ mac_))
      (s.addSwTbl cfg now mac_ port_ t) := by
  unfold Tables.addSwTbl
  by_cases hfull : (s.tbl t).entrys ≥ SW_TBL_MAX_ENTRYS
  · rw [if_pos hfull]
    exact .ok (.inl ⟨hfull, rfl⟩)
  have hroom : (s.tbl t).entrys < SW_TBL_MAX_ENTRYS := not_le.1 hfull
  rw [if_neg hfull]
  obtain ⟨s₁, l₁, found, heq, hp₁, -, hfound⟩ := findSwTbl_spec h cfg now mac_ port_ t
  rw [heq, bind_ok]
  cases found with
  | true =>
    obtain ⟨k, hk, hm, hkp⟩ := hfound
    refine .ok (.inr ⟨hroom, l₁, hp₁.shape, fun t' m p hp => ?_⟩)
    by_cases hthis : t' = t ∧ m = mac_
    · obtain ⟨rfl, rfl⟩ := hthis
      exact .inl ⟨rfl, rfl, hkp.symm.trans (hp.port_eq hp₁.shape hk hm)⟩
    · exact .inr ⟨hp₁.hasPort hp, fun ht hm => hthis ⟨ht, hm⟩⟩
  | false =>
    obtain ⟨s₂, l₂, found, heq, hp₂, -, -⟩ := findSwTbl_spec hp₁.shape cfg now mac_ port_ .pmntSwTable
    have hnone : ∀ k ∈ l₂ t, (s₂.record k).mac ≠ mac_ := fun k hk =>
      hp₂.mac k ▸ hfound k ((hp₂.sublist t).subset hk)
    simp only [Bool.false_eq_true, if_false, heq, bind_ok]
    cases found with
    | true =>
      refine .ok (.inr ⟨hroom, l₂, hp₂.shape, fun t' m p hp => ?_⟩)
      refine .inr ⟨hp₁.hasPort (hp₂.hasPort hp), ?_⟩
      rintro rfl rfl
      obtain ⟨k, hk, hm, -⟩ := hp
      exact hnone k hk hm
    | false =>
      simp only [Bool.false_eq_true, if_false]
      split
      · exact .error hroom
      · refine .ok (.inr ⟨hroom, _, (append_spec hp₂.shape hnone).1, fun t' m p hp => ?_⟩)
        rcases append_hasPort hp₂.shape hp hnone with hnew | ⟨hold, hm⟩
        · exact .inl hnew
        · exact .inr ⟨hp₁.hasPort (hp₂.hasPort hold), hm⟩

omit [DecidableEq π] in
/-- The loop of `flushSwTbl` behind the records `pre` that stay. -/
theorem flushLoop_spec {n : Nat} (h : Shape s l) (hl : l .swTable = pre ++ post)
    (hn : post.length ≤ n) :
    ∃ s' l', Tables.flushLoop now n pre.getLast? post.head? s = .ok s' ∧ Prunes s s' l l' := by
  induction post generalizing s l pre n with
  | nil =>
    refine ⟨s, l, ?_, .refl h⟩
    cases n <;> rfl
  | cons mt post ih =>
    obtain ⟨n, rfl⟩ : ∃ k, n = k + 1 := ⟨n - 1, by simp at hn; omega⟩
    have hchain := (h.table .swTable).list.chain
    rw [hl] at hchain
    have hnext : s.next mt = post.head? := hchain.after.head_eq
    have hn : post.length ≤ n := by simpa using hn
    simp only [List.head?_cons, Tables.flushLoop, hnext]
    split
    · obtain ⟨s₁, heq, hp₁, -, -⟩ := delSwTbl_spec h hl
      obtain ⟨s₂, l₂, heq₂, hp₂⟩ := ih hp₁.shape (Function.update_self _ _ _) hn
      exact ⟨s₂, l₂, by simp [heq, heq₂], hp₁.trans hp₂⟩
    · have hl' : l .swTable = pre ++ [mt] ++ post := by simp [hl]
      have hih := ih h hl' hn
      rwa [List.getLast?_concat] at hih

omit [DecidableEq π] in
theorem flushSwTbl_spec (h : Shape s l) (now : UInt64) :
    ∃ s' l', s.flushSwTbl now = .ok s' ∧ Prunes s s' l l' := by
  unfold Tables.flushSwTbl
  rw [(h.table .swTable).list.head_eq]
  have hl : l .swTable = [] ++ l .swTable := rfl
  exact flushLoop_spec h hl (h.table .swTable).length_le

/-! ### Frames -/

variable [DecidableEq μ]

theorem forward_ok (h : Shape s l) (cfg : Config π μ) (PortState : UInt8 → UInt8) (f : Frame μ) :
    ∃ out, s.forward cfg PortState f = .ok out := by
  obtain ⟨r, hr, -⟩ := findport_spec h f.dstMac .pmntSwTable
  obtain ⟨r', hr', -⟩ := findport_spec h f.dstMac .swTable
  unfold Tables.forward
  simp only [hr, hr', bind_ok]
  repeat' split
  all_goals exact ⟨_, rfl⟩

/-- A notification adds no station to `swTable`. Any other frame does nothing at all, or leaves its
    source on no other port than its own and adds no other station. -/
theorem learn_spec (h : Shape s l) (hmode : cfg.SWITCH_MODE = .RunLearningBridgeProtocol)
    (now : UInt64) (f : Frame μ) :
    Ends (fun _ => f.isNotification = false → Learns s f)
      (fun s' => ∃ l', Shape s' l' ∧
        if f.isNotification then
          ∀ m p, HasPort s' l' .swTable m p → HasPort s l .swTable m p
        else s' = s ∧ l' = l ∧ ¬ Learns s f ∨ Learns s f ∧ ∀ m p, HasPort s' l' .swTable m p →
          m = f.srcMac ∧ cfg.frmport f.frm = some p ∨ HasPort s l .swTable m p ∧ m ≠ f.srcMac)
      (s.learn cfg now f) := by
  unfold Tables.learn
  by_cases hdst : f.dstMac = ETHER_MULTICAST1
  · have hdeaf : ¬ Learns s f := fun hL => hL.2 hdst
    rw [if_pos hdst]
    by_cases hadd : f.AddEn = true
    · have hnot : f.isNotification = true := by simp [Frame.isNotification, hdst, hadd]
      rw [if_pos hadd]
      refine (addSwTbl_spec h cfg now f.srcMac (cfg.frmport f.frm) .pmntSwTable).mono
        (fun _ _ hf => absurd hnot (by simp [hf])) fun s' hs' => ?_
      rcases hs' with ⟨-, rfl⟩ | ⟨-, l', hshape, hports⟩
      · exact ⟨l, h, by simp [hnot]⟩
      · refine ⟨l', hshape, ?_⟩
        rw [if_pos hnot]
        intro m p hp
        rcases hports _ m p hp with ⟨ht, -⟩ | ⟨hp, -⟩
        · cases ht
        · exact hp
    · rw [if_neg hadd]
      by_cases hdel : f.DelEn = true
      · have hnot : f.isNotification = true := by simp [Frame.isNotification, hdst, hdel]
        rw [if_pos hdel]
        rcases search_spec h f.srcMac .pmntSwTable with ⟨hsearch, -⟩ | ⟨pre, mt, post, hl, -, -, hsearch⟩
        · rw [hsearch]
          exact .ok ⟨l, h, by simp [hnot]⟩
        · obtain ⟨s', heq, hp, -, -⟩ := delSwTbl_spec h hl
          simp only [hsearch, bind_ok, heq]
          refine .ok ⟨_, hp.shape, ?_⟩
          rw [if_pos hnot]
          exact fun m p => hp.hasPort
      · have hnot : f.isNotification = false := by simp [Frame.isNotification, hadd, hdel]
        rw [if_neg hdel]
        exact .ok ⟨l, h, by simp [hnot, hdeaf]⟩
  · have hnot : f.isNotification = false := by simp [Frame.isNotification, hdst]
    rw [if_neg hdst, if_pos hmode]
    refine (addSwTbl_spec h cfg now f.srcMac (cfg.frmport f.frm) .swTable).mono
      (fun _ hroom _ => ⟨hroom, hdst⟩) fun s' hs' => ?_
    rcases hs' with ⟨hfull, rfl⟩ | ⟨hroom, l', hshape, hports⟩
    · refine ⟨l, h, ?_⟩
      rw [if_neg (by simp [hnot])]
      exact .inl ⟨rfl, rfl, fun hL => absurd hL.1 (not_lt.2 hfull)⟩
    · refine ⟨l', hshape, ?_⟩
      rw [if_neg (by simp [hnot])]
      refine .inr ⟨⟨hroom, hdst⟩, fun m p hp => ?_⟩
      rcases hports _ m p hp with ⟨-, hnew⟩ | ⟨hold, hm⟩
      · exact .inl hnew
      · exact .inr ⟨hold, hm rfl⟩

/-! ### Runs -/

/-- The tables are lists, and `swTable` has no station on another port than its last one. -/
def WatchInv (w : Watched π) : Prop :=
  ∃ l, Shape w.tables l ∧ ∀ m p, HasPort w.tables l .swTable m p → w.arrived m = some p

omit [DecidableEq π] [DecidableEq μ] in
theorem WatchInv.tableRight {w : Watched π} (h : WatchInv w) : TableRight w := by
  obtain ⟨l, hl, hports⟩ := h
  have ht := hl.table .swTable
  exact ⟨⟨l .swTable, ht.list, ht.entrys, ht.macs⟩, fun m p hp =>
    hports m p ((findport_iff hl m _ p).1 hp)⟩

omit [DecidableEq π] [DecidableEq μ] in
theorem WatchInv.new (r : MapTbl π) : WatchInv ⟨Tables.new r, fun _ => none⟩ := by
  refine ⟨_, Shape.new r, ?_⟩
  rintro m p ⟨k, hk, -⟩
  cases hk

/-- A step of a switch keeps the tables in shape, and the ports right exactly if a station that has
    moved is learnt again. -/
theorem step_spec {w : Watched π} (hmode : cfg.SWITCH_MODE = .RunLearningBridgeProtocol)
    (h : WatchInv w) (c : Call μ) :
    Ends (fun _ => Relocates cfg w c)
      (fun w' => (Relocates cfg w c → WatchInv w') ∧ (TableRight w' → Relocates cfg w c))
      (w.step cfg c) := by
  obtain ⟨l, hl, hports⟩ := h
  cases c with
  | flushSwTbl now =>
    obtain ⟨s', l', heq, hp⟩ := flushSwTbl_spec hl now
    simp only [Watched.step, heq, bind_ok]
    exact .ok ⟨fun _ => ⟨l', hp.shape, fun m p hm => hports m p (hp.hasPort hm)⟩, fun _ => trivial⟩
  | send now PortState f =>
    simp only [Watched.step, Tables.send]
    obtain ⟨s', heq, l', hl', hs'⟩ | ⟨e, heq, he⟩ := (learn_spec hl hmode now f).cases
    · obtain ⟨out, hout⟩ := forward_ok hl' cfg PortState f
      simp only [heq, hout, bind_ok]
      by_cases hnot : f.isNotification = true
      · rw [if_pos hnot] at hs' ⊢
        exact .ok ⟨fun _ => ⟨l', hl', fun m p hm => hports m p (hs' m p hm)⟩,
          fun _ hf => absurd hf (by simp [hnot])⟩
      · rw [if_neg hnot] at hs' ⊢
        rcases hs' with ⟨rfl, rfl, hdeaf⟩ | ⟨hL, hs'⟩
        · refine .ok ⟨fun hC => ⟨l', hl', fun m p hm => ?_⟩, fun hP hf p hp hne => ?_⟩
          · show Function.update w.arrived f.srcMac (cfg.frmport f.frm) m = some p
            by_cases hsrc : m = f.srcMac
            · subst hsrc
              rw [Function.update_self]
              by_contra hne
              exact hdeaf (hC (by simpa using hnot) p ((findport_iff hl _ _ p).2 hm) (Ne.symm hne))
            · rw [Function.update_of_ne hsrc]
              exact hports m p hm
          · have harr : Function.update w.arrived f.srcMac (cfg.frmport f.frm) f.srcMac = some p :=
              hP.2 f.srcMac p hp
            rw [Function.update_self] at harr
            exact absurd harr.symm hne
        · refine .ok ⟨fun _ => ⟨l', hl', fun m p hm => ?_⟩, fun _ _ _ _ _ => hL⟩
          show Function.update w.arrived f.srcMac (cfg.frmport f.frm) m = some p
          rcases hs' m p hm with ⟨rfl, hp⟩ | ⟨hold, hm⟩
          · rw [Function.update_self]
            exact hp
          · rw [Function.update_of_ne hm]
            exact hports m p hold
    · simp only [heq, bind_error]
      exact .error fun hf _ _ _ => he hf

/-- In every run of a learning switch, `swTable` is right in every state exactly if every frame of a
    station that `swTable` has on another port comes when the switch can learn it. -/
theorem run_tableRight_iff (cfg : Config π μ) (hmode : cfg.SWITCH_MODE = .RunLearningBridgeProtocol)
    (r : MapTbl π) (cs : List (Call μ)) :
    Run.Always (Watched.step cfg) TableRight ⟨Tables.new r, fun _ => none⟩ cs ↔
      Run.Along (Watched.step cfg) (Relocates cfg) ⟨Tables.new r, fun _ => none⟩ cs := by
  refine Run.always_iff_along (D := fun _ _ => True) (fun w => WatchInv.tableRight) ?_ ?_ ?_
    (WatchInv.new r) (Run.Along.true _ _)
  · intro w c w' h _ hstep hC
    have hs := step_spec hmode h c
    rw [hstep] at hs
    exact hs.1 hC
  · intro w c w' h _ hstep hP
    have hs := step_spec hmode h c
    rw [hstep] at hs
    exact hs.2 hP
  · intro w c e h _ hstep
    have hs := step_spec hmode h c
    rw [hstep] at hs
    exact hs

/-- Two ports, each bound to a module of its own. -/
def twoPorts : Config Bool Bool where
  PortList := [⟨1, false, false⟩, ⟨2, true, true⟩]
  SWITCH_MODE := .RunLearningBridgeProtocol
  SpanningTreeProtocol := false
  flushInterval_ := 3000

/-- A broadcast of station number `n` on a port. -/
def broadcastOf (n : Nat) (port : Bool) : Call Bool :=
  .send 0 (fun _ => 1) ⟨BitVec.ofNat 48 n, ETHER_BROADCAST, false, false, port⟩

/-- An empty table. -/
def blank : Watched Bool := ⟨Tables.new ⟨0, none, 0, 0⟩, fun _ => none⟩

/-- A station that moves while the table has room is learnt on its new port. -/
theorem run_tableRight_moved :
    Run.Always (Watched.step twoPorts) TableRight blank
      [broadcastOf 7 false, broadcastOf 7 true, .flushSwTbl 3000] :=
  (run_tableRight_iff twoPorts rfl _ _).2 (by decide)

theorem step_broadcast {n : Nat} {port : Bool} {w : Watched Bool} {s' : Tables Bool}
    {l' : Target → List Nat} (hshape : Shape s' l')
    (hadd : w.tables.addSwTbl twoPorts 0 (BitVec.ofNat 48 n) (some port) .swTable = .ok s') :
    w.step twoPorts (broadcastOf n port) =
      .ok ⟨s', Function.update w.arrived (BitVec.ofNat 48 n) (some port)⟩ := by
  have hfrm : twoPorts.frmport port = some port := by cases port <;> rfl
  have hlearn : w.tables.learn twoPorts 0
      ⟨BitVec.ofNat 48 n, ETHER_BROADCAST, false, false, port⟩ = .ok s' := by
    unfold Tables.learn
    rw [if_neg (by decide : ¬ ETHER_BROADCAST = ETHER_MULTICAST1)]
    simp only [hfrm, hadd]
    rfl
  obtain ⟨out, hout⟩ := forward_ok hshape twoPorts (fun _ => 1)
    ⟨BitVec.ofNat 48 n, ETHER_BROADCAST, false, false, port⟩
  simp [broadcastOf, Watched.step, Tables.send, hlearn, hout, hfrm, Frame.isNotification]

/-- `swTable` has the stations below `n`, which came on the first port. -/
def Filled (n : Nat) (w : Watched Bool) : Prop :=
  ∃ l, Shape w.tables l ∧ (l .swTable).length = n ∧
    (∀ t, ∀ k ∈ l t, ∃ i < n, (w.tables.record k).mac = BitVec.ofNat 48 i) ∧
    (0 < n → HasPort w.tables l .swTable 0 false)

theorem Filled.step {n : Nat} {w : Watched Bool} (h : Filled n w) (hn : n < 256) :
    ∃ w', w.step twoPorts (broadcastOf n false) = .ok w' ∧ Filled (n + 1) w' := by
  obtain ⟨l, hl, hlen, hmacs, hzero⟩ := h
  have hroom : (w.tables.tbl .swTable).entrys < SW_TBL_MAX_ENTRYS := by
    rw [(hl.table .swTable).entrys, hlen, SW_TBL_MAX_ENTRYS]
    omega
  have hnew : ∀ t', ∀ k ∈ l t', (w.tables.record k).mac ≠ BitVec.ofNat 48 n := by
    intro t' k hk he
    obtain ⟨i, hi, hik⟩ := hmacs t' k hk
    have hin := congrArg BitVec.toNat (hik.symm.trans he)
    simp only [BitVec.toNat_ofNat] at hin
    omega
  have hadd : w.tables.addSwTbl twoPorts 0 (BitVec.ofNat 48 n) (some false) .swTable =
      .ok (w.tables.append .swTable ⟨BitVec.ofNat 48 n, some false, 1, 0 + 3000⟩) :=
    have hport : twoPorts.PortList.find? (fun p => decide (some p.port = some false)) =
        some ⟨1, false, false⟩ := rfl
    addSwTbl_new hl hroom hnew hport
  obtain ⟨hshape, hrec⟩ := append_spec (r := ⟨BitVec.ofNat 48 n, some false, 1, 0 + 3000⟩) hl
    (hnew .swTable)
  have hlt : ∀ t', ∀ k ∈ l t', k ≠ w.tables.allocated := fun t' k hk => ((hl.table t').lt k hk).ne
  refine ⟨_, step_broadcast hshape hadd, _, hshape, ?_, fun t k hk => ?_, fun _ => ?_⟩
  · simp [hlen]
  · rw [hrec]
    by_cases hk0 : k = w.tables.allocated
    · exact ⟨n, Nat.lt_succ_self n, by simp [hk0]⟩
    · have hk : k ∈ l t := by
        by_cases ht : t = .swTable
        · subst ht
          simpa [hk0] using hk
        · rwa [Function.update_of_ne ht] at hk
      obtain ⟨i, hi, him⟩ := hmacs t k hk
      exact ⟨i, Nat.lt_succ_of_lt hi, by rw [Function.update_of_ne hk0, him]⟩
  · unfold HasPort
    rw [hrec]
    rcases Nat.eq_zero_or_pos n with rfl | hpos
    · exact ⟨w.tables.allocated, by simp, by simp, by simp⟩
    · obtain ⟨k, hk, hm, hp⟩ := hzero hpos
      refine ⟨k, by simp [hk], ?_⟩
      rw [Function.update_of_ne (hlt _ k hk)]
      exact ⟨hm, hp⟩

theorem exec_fill {n : Nat} (hn : n ≤ 256) :
    ∃ w, Run.exec (Watched.step twoPorts) blank
      ((List.range n).map fun i => broadcastOf i false) = .ok w ∧ Filled n w := by
  induction n with
  | zero => exact ⟨blank, rfl, _, Shape.new _, rfl, by simp, by simp⟩
  | succ n ih =>
    obtain ⟨w, hw, hfilled⟩ := ih (by omega)
    obtain ⟨w', hw', hfilled'⟩ := hfilled.step (by omega)
    refine ⟨w', ?_, hfilled'⟩
    rw [List.range_succ, List.map_append, Run.exec_append hw]
    simp [Run.exec, hw']

/-- When 256 stations have filled the table, a station that moves keeps its old port. -/
theorem full_table_keeps_old_port :
    ¬ Run.Always (Watched.step twoPorts) TableRight blank
      (((List.range 256).map fun i => broadcastOf i false) ++ [broadcastOf 0 true]) := by
  intro h
  obtain ⟨w, hw, l, hl, hlen, -, hzero⟩ := exec_fill (n := 256) le_rfl
  have hfull : w.tables.addSwTbl twoPorts 0 (BitVec.ofNat 48 0) (some true) .swTable =
      .ok w.tables := by
    unfold Tables.addSwTbl
    rw [if_pos (by rw [(hl.table .swTable).entrys, hlen, SW_TBL_MAX_ENTRYS]; decide)]
  have hexec : Run.exec (Watched.step twoPorts) blank
      (((List.range 256).map fun i => broadcastOf i false) ++ [broadcastOf 0 true]) =
      .ok ⟨w.tables, Function.update w.arrived (BitVec.ofNat 48 0) (some true)⟩ := by
    rw [Run.exec_append hw]
    simp only [Run.exec, step_broadcast hl hfull]
  have hright := (h.exec hexec).2 0 false ((findport_iff hl 0 .swTable false).2 (hzero (by decide)))
  have harr : Function.update w.arrived (BitVec.ofNat 48 0) (some true) 0 = some false := hright
  rw [show (0 : Mac) = BitVec.ofNat 48 0 from rfl, Function.update_self] at harr
  cases harr

end Switch
