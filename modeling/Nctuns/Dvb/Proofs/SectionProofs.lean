import Mathlib.Data.List.Basic
import Mathlib.Data.List.Flatten
import Mathlib.Data.List.Forall2
import Mathlib.Data.List.Nodup
import Mathlib.Data.List.Perm.Subperm
import Nctuns.Dvb.Section
import Nctuns.Lib.Outcome

/-!
# Proofs about tables in sections

A table is cut into groups of entries, one for each section, and the handler collects the groups of
the sections that arrive, until a section of every number has come.
-/

namespace Dvb

open SectionConst Outcome

variable {δ ι : Type} {F : TableFormat ι} {R : ι → ι → Prop} {t : SiTable δ ι}
  {g es : List ι} {gs : List (List ι)}

/-- What `put` makes of the entry can be read back by `get`, as an entry that `R` relates to it. -/
structure TableFormat.Carries (F : TableFormat ι) (R : ι → ι → Prop) (e : ι) : Prop where
  len : (F.info_len e).toNat = (F.put e).length
  pos : 0 < (F.put e).length
  fits : F.DRAFT_SIZE.toNat + (F.put e).length + 1 < 4096
  get : ∀ rest, ∃ e', F.get (F.put e ++ rest) = .ok (e', rest) ∧ R e e'

/-- `to_table` takes off what the draft has behind `section_length`. -/
structure TableFormat.Framed (F : TableFormat ι) : Prop where
  partial_header : F.partial_header + 3 = F.DRAFT_SIZE.toNat
  draft_le : F.DRAFT_SIZE.toNat ≤ 16

/-- The bytes of a group of entries. -/
def TableFormat.bytes (F : TableFormat ι) (g : List ι) : List UInt8 := g.flatMap F.put

@[simp] theorem bytes_nil : F.bytes [] = [] := rfl

@[simp] theorem bytes_cons (e : ι) (g : List ι) : F.bytes (e :: g) = F.put e ++ F.bytes g := rfl

@[simp] theorem bytes_append (g g' : List ι) : F.bytes (g ++ g') = F.bytes g ++ F.bytes g' :=
  List.flatMap_append

/-- An entry after a modification is an old one or the modified one. -/
theorem mem_modifyFirst {p : ι → Bool} {f : ι → ι} {e' : ι} (h : e' ∈ modifyFirst p f es) :
    ∃ e ∈ es, e' = e ∨ e' = f e := by
  induction es with
  | nil => cases h
  | cons e es ih =>
    unfold modifyFirst at h
    split at h
    · rcases List.mem_cons.1 h with rfl | h
      · exact ⟨e, List.mem_cons_self, .inr rfl⟩
      · exact ⟨e', List.mem_cons_of_mem _ h, .inl rfl⟩
    · rcases List.mem_cons.1 h with rfl | h
      · exact ⟨e', List.mem_cons_self, .inl rfl⟩
      · obtain ⟨e₀, he₀, hor⟩ := ih h
        exact ⟨e₀, List.mem_cons_of_mem _ he₀, hor⟩

/-! ### Cutting a table -/

/-- The section of a group. -/
def TableFormat.sectionOf (F : TableFormat ι) (t : SiTable δ ι) (last number : UInt16)
    (g : List ι) : TableSection δ where
  draft :=
    { section_length := UInt16.ofNat (F.DRAFT_SIZE.toNat + (F.bytes g).length + 1)
      network_id := t.network_id
      version_number := t.version_number % 32
      current_next_indicator := t.current_next_indicator % 2
      section_number := number.toUInt8
      last_section_number := last.toUInt8
      more := t.more
      loop_count := UInt8.ofNat g.length - 1 }
  info := F.bytes g

/-- The length field of a closed section. -/
theorem closed_eq {offset : UInt32} (h3 : 3 ≤ offset.toNat) (h : offset.toNat + 1 < 4096) :
    TableFormat.closed offset = UInt16.ofNat (offset.toNat + 1) := by
  have hsub : (offset - 3).toNat = offset.toNat - 3 :=
    UInt32.toNat_sub_of_le _ _ (UInt32.le_iff_toNat_le.2 h3)
  refine UInt16.toNat_inj.1 ?_
  show ((offset - 3 + 4).toUInt16).toNat = _
  rw [UInt32.toNat_toUInt16, UInt32.toNat_add, hsub, UInt16.toNat_ofNat']
  simp
  omega

/-- The lengths are those of groups that the entries fall into, none of them too long to be told. -/
theorem section_lengths_spec (hF : F.Framed) {offset : UInt32}
    (hoff : offset.toNat = F.DRAFT_SIZE.toNat + (F.bytes g).length) (hg : offset.toNat + 1 < 4096)
    (hes : ∀ e ∈ es, F.Carries R e) :
    ∃ gs : List (List ι), gs.flatten = g ++ es ∧ gs ≠ [] ∧
      F.section_lengths offset es =
        gs.map (fun g => UInt16.ofNat (F.DRAFT_SIZE.toNat + (F.bytes g).length + 1)) ∧
      ∀ g ∈ gs, F.DRAFT_SIZE.toNat + (F.bytes g).length + 1 < 4096 := by
  have h3 := hF.partial_header
  induction es generalizing offset g with
  | nil =>
    refine ⟨[g], by simp, by simp, ?_, ?_⟩
    · rw [TableFormat.section_lengths, closed_eq (by omega) hg, hoff]
      rfl
    · intro g' hg'
      rw [List.mem_singleton.1 hg']
      omega
  | cons e es ih =>
    have he := hes e List.mem_cons_self
    have hrest := fun e' h' => hes e' (List.mem_cons_of_mem e h')
    have hlen := he.len
    have hfits := he.fits
    have hnew : (offset + F.info_len e).toNat = offset.toNat + (F.put e).length := by
      rw [UInt32.toNat_add, hlen]
      exact Nat.mod_eq_of_lt (by omega)
    have hopen : (F.DRAFT_SIZE + F.info_len e).toNat = F.DRAFT_SIZE.toNat + (F.put e).length := by
      rw [UInt32.toNat_add, hlen]
      exact Nat.mod_eq_of_lt (by omega)
    simp only [TableFormat.section_lengths]
    split
    · have hle : (offset + F.info_len e).toNat ≤ 1020 := UInt32.le_iff_toNat_le.1 ‹_›
      obtain ⟨gs, hflat, hne, hlens, hbound⟩ := @ih (g ++ [e]) (offset + F.info_len e)
        (by rw [hnew, hoff]; simp; omega) (by omega) hrest
      exact ⟨gs, by simp [hflat], hne, hlens, hbound⟩
    · obtain ⟨gs, hflat, hne, hlens, hbound⟩ := @ih [e] (F.DRAFT_SIZE + F.info_len e)
        (by rw [hopen]; simp) (by omega) hrest
      refine ⟨g :: gs, by simp [hflat], by simp, ?_, ?_⟩
      · rw [hlens, closed_eq (by omega) hg, hoff]
        rfl
      · intro g' hg'
        rcases List.mem_cons.1 hg' with rfl | hg'
        · omega
        · exact hbound g' hg'

/-- A section is filled with its group. -/
theorem fill_spec {stop offset : UInt32} (hg : ∀ e ∈ g, F.Carries R e) (es : List ι)
    (hstop : stop.toNat = offset.toNat + (F.bytes g).length) :
    F.fill stop offset (g ++ es) = .ok (UInt8.ofNat g.length, F.bytes g, es) := by
  induction g generalizing offset with
  | nil =>
    have heq : offset = stop := UInt32.toNat_inj.1 (by simpa using hstop.symm)
    cases es <;> simp [TableFormat.fill, heq]
  | cons e g ih =>
    have he := hg e List.mem_cons_self
    have hpos := he.pos
    have hlt := stop.toNat_lt
    rw [bytes_cons, List.length_append] at hstop
    have hne : offset ≠ stop := by
      rintro rfl
      omega
    have hfits := he.fits
    have hput : (UInt32.ofNat (F.put e).length).toNat = (F.put e).length :=
      UInt32.toNat_ofNat_of_lt' (by show (F.put e).length < 2 ^ 32; omega)
    have hnext : (offset + UInt32.ofNat (F.put e).length).toNat =
        offset.toNat + (F.put e).length := by
      rw [UInt32.toNat_add, hput]
      exact Nat.mod_eq_of_lt (by omega)
    rw [List.cons_append, TableFormat.fill, if_neg hne,
      ih (fun e' h' => hg e' (List.mem_cons_of_mem e h')) (by rw [hnext]; omega)]
    simp

/-- The sections of groups, numbered from `number` on. -/
def TableFormat.sectionsOf (F : TableFormat ι) (t : SiTable δ ι) (last : UInt16) :
    UInt16 → List (List ι) → List (TableSection δ)
  | _, [] => []
  | number, g :: gs => F.sectionOf t last number g :: sectionsOf F t last (number + 1) gs

/-- **Cutting.** The groups become sections one by one. -/
theorem table_to_section_spec (t : SiTable δ ι) (last number : UInt16)
    (hgs : ∀ g ∈ gs, F.DRAFT_SIZE.toNat + (F.bytes g).length + 1 < 4096)
    (hes : ∀ e ∈ gs.flatten, F.Carries R e) :
    F.table_to_section t last number
        (gs.map fun g => UInt16.ofNat (F.DRAFT_SIZE.toNat + (F.bytes g).length + 1)) gs.flatten =
      .ok (F.sectionsOf t last number gs) := by
  induction gs generalizing number with
  | nil => rfl
  | cons g gs ih =>
    have hfits := hgs g List.mem_cons_self
    have hsize : (UInt16.ofNat (F.DRAFT_SIZE.toNat + (F.bytes g).length + 1)).toNat =
        F.DRAFT_SIZE.toNat + (F.bytes g).length + 1 :=
      UInt16.toNat_ofNat_of_lt' (by show _ < 2 ^ 16; omega)
    have hstop : ((UInt16.ofNat (F.DRAFT_SIZE.toNat + (F.bytes g).length + 1)).toUInt32 +
        SECTION_DRAFT_SIZE - CRC32_SIZE).toNat = F.DRAFT_SIZE.toNat + (F.bytes g).length := by
      have hsum : ((UInt16.ofNat (F.DRAFT_SIZE.toNat + (F.bytes g).length + 1)).toUInt32 +
          SECTION_DRAFT_SIZE).toNat = F.DRAFT_SIZE.toNat + (F.bytes g).length + 4 := by
        rw [UInt32.toNat_add, UInt16.toNat_toUInt32, hsize, SECTION_DRAFT_SIZE]
        exact Nat.mod_eq_of_lt (by simp; omega)
      have hle : CRC32_SIZE ≤ (UInt16.ofNat (F.DRAFT_SIZE.toNat + (F.bytes g).length + 1)).toUInt32 +
          SECTION_DRAFT_SIZE := by
        rw [UInt32.le_iff_toNat_le, hsum]
        show 4 ≤ _
        omega
      rw [UInt32.toNat_sub_of_le _ _ hle, hsum]
      rfl
    have hmod : UInt16.ofNat (F.DRAFT_SIZE.toNat + (F.bytes g).length + 1) % 4096 =
        UInt16.ofNat (F.DRAFT_SIZE.toNat + (F.bytes g).length + 1) := by
      refine UInt16.toNat_inj.1 ?_
      rw [UInt16.toNat_mod, hsize]
      exact Nat.mod_eq_of_lt hfits
    rw [List.flatten_cons, List.forall_mem_append] at hes
    have hrest := ih (number + 1) (fun g' h' => hgs g' (List.mem_cons_of_mem g h')) hes.2
    rw [List.map_cons, List.flatten_cons, TableFormat.table_to_section,
      fill_spec hes.1 gs.flatten hstop]
    simp only [bind_ok, hrest, TableFormat.sectionsOf, TableFormat.sectionOf, hmod]

/-- A table falls into the sections of groups of its entries, if these are not too many. -/
theorem sections_spec (hF : F.Framed) (hes : ∀ e ∈ t.entries, F.Carries R e)
    (hne : t.entries ≠ []) :
    ∃ gs : List (List ι), gs.flatten = t.entries ∧ gs ≠ [] ∧
      (F.section_lengths F.DRAFT_SIZE t.entries).length = gs.length ∧
      (∀ g ∈ gs, F.DRAFT_SIZE.toNat + (F.bytes g).length + 1 < 4096) ∧
      F.sections t = if gs.length > MAX_SECTIONS then .error .tooManySections
        else .ok (F.sectionsOf t (UInt16.ofNat (gs.length - 1)) 0 gs) := by
  have hdraft := hF.draft_le
  obtain ⟨gs, hflat, hgs, hlens, hbound⟩ := @section_lengths_spec ι F R [] t.entries hF F.DRAFT_SIZE
    rfl (by omega) hes
  rw [List.nil_append] at hflat
  have hlen : (F.section_lengths F.DRAFT_SIZE t.entries).length = gs.length := by simp [hlens]
  refine ⟨gs, hflat, hgs, hlen, hbound, ?_⟩
  simp only [TableFormat.sections, if_neg hne, hlen]
  split
  · rfl
  · rw [← hflat] at hes
    rw [hlens, ← hflat]
    exact table_to_section_spec t _ 0 hbound hes

/-- One section for each group. -/
theorem length_sectionsOf {last number : UInt16} :
    (F.sectionsOf t last number gs).length = gs.length := by
  induction gs generalizing number with
  | nil => rfl
  | cons g gs ih => rw [TableFormat.sectionsOf, List.length_cons, ih, List.length_cons]

/-- The section of a group, by its number. -/
theorem getElem?_sectionsOf {last number : UInt16} {k : Nat} :
    (F.sectionsOf t last number gs)[k]? =
      gs[k]?.map (F.sectionOf t last (number + UInt16.ofNat k)) := by
  induction gs generalizing number k with
  | nil => rfl
  | cons g gs ih =>
    cases k with
    | zero => simp [TableFormat.sectionsOf]
    | succ k =>
      have hadd : number + 1 + UInt16.ofNat k = number + UInt16.ofNat (k + 1) := by
        rw [UInt16.add_assoc]
        congr 1
        refine UInt16.toNat_inj.1 ?_
        simp [UInt16.toNat_add]
        omega
      simpa [TableFormat.sectionsOf, hadd] using @ih (number + 1) k

/-! ### Putting it together -/

/-- A word is read back from its bytes. -/
theorem word_bytes {k n : Nat} (h : n < 256 ^ k) (rest : List UInt8) :
    word k (LittleEndian.bytes k n ++ rest) = .ok (n, rest) := by
  rw [word, LittleEndian.read_bytes h]

/-- A scan of the bytes of a group puts its entries at the head of the queue, one by one. -/
theorem scan_spec {total fuel pos : Nat} (hg : ∀ e ∈ g, F.Carries R e)
    (htotal : pos + (F.bytes g).length = total) (hfuel : g.length < fuel) (t : SiTable δ ι) :
    ∃ t', F.scan total fuel pos (F.bytes g) t = .ok t' ∧
      ∃ es, t'.entries = es.reverse ++ t.entries ∧ List.Forall₂ R g es := by
  induction g generalizing fuel pos t with
  | nil =>
    obtain ⟨n, rfl⟩ : ∃ n, fuel = n + 1 := ⟨fuel - 1, by simp at hfuel; omega⟩
    have hend : ¬ (pos : Int) < (total : Int) := by simp at htotal; omega
    exact ⟨t, by rw [TableFormat.scan, if_neg hend], [], by simp, .nil⟩
  | cons e g ih =>
    obtain ⟨n, rfl⟩ : ∃ n, fuel = n + 1 := ⟨fuel - 1, by simp at hfuel; omega⟩
    have he := hg e List.mem_cons_self
    have hpos := he.pos
    obtain ⟨e', hget, hR⟩ := he.get (F.bytes g)
    rw [bytes_cons, List.length_append] at htotal
    have hmore : (pos : Int) < (total : Int) := by omega
    obtain ⟨t', hscan, es, hes, hall⟩ := @ih n (pos + (F.put e).length)
      (fun e h' => hg e (List.mem_cons_of_mem _ h')) (by omega) (by simpa using hfuel)
      { t with
        loop_count := (t.loop_count + 1) % F.loop_count_limit
        entries := e' :: t.entries }
    refine ⟨t', ?_, e' :: es, by simp [hes], .cons hR hall⟩
    rw [TableFormat.scan, if_pos hmore, bytes_cons, hget, bind_ok]
    simpa using hscan

/-- The sections `secs` of a table carry the groups `gs`. -/
structure CutInto (F : TableFormat ι) (t : SiTable δ ι) (secs : List (TableSection δ))
    (gs : List (List ι)) : Prop where
  flatten : gs.flatten = t.entries
  ne : gs ≠ []
  count : gs.length ≤ 1000
  fits : ∀ g ∈ gs, F.DRAFT_SIZE.toNat + (F.bytes g).length + 1 < 4096
  get : ∀ k, secs[k]? =
    gs[k]?.map (F.sectionOf t (UInt16.ofNat (gs.length - 1)) (UInt16.ofNat k))

/-- As many sections as groups. -/
theorem CutInto.length {secs : List (TableSection δ)} (h : CutInto F t secs gs) :
    secs.length = gs.length := by
  have hiff : ∀ k, secs.length ≤ k ↔ gs.length ≤ k := by
    intro k
    rw [← List.getElem?_eq_none_iff, ← List.getElem?_eq_none_iff, h.get k, Option.map_eq_none_iff]
  exact Nat.le_antisymm ((hiff _).2 (Nat.le_refl _)) ((hiff _).1 (Nat.le_refl _))

/-- **Sections.** Every table is cut into sections of its entries. -/
theorem sections_cut {secs : List (TableSection δ)} (hF : F.Framed)
    (hes : ∀ e ∈ t.entries, F.Carries R e) (h : F.sections t = .ok secs) :
    ∃ gs, CutInto F t secs gs := by
  have hne : t.entries ≠ [] := by
    intro hnil
    simp [TableFormat.sections, hnil] at h
  obtain ⟨gs, hflat, hgs, -, hfits, hsecs⟩ := sections_spec hF hes hne
  rw [h] at hsecs
  split at hsecs
  · cases hsecs
  · refine ⟨gs, hflat, hgs, by rename_i hcount; exact Nat.not_lt.1 hcount, hfits, fun k => ?_⟩
    rw [Except.ok.inj hsecs, getElem?_sectionsOf]
    simp

/-- The entries of the sections with the numbers `as`, in the order in which these arrive. -/
def gathered (gs : List (List ι)) (as : List Nat) : List ι := as.flatMap fun k => gs.getD k []

/-- A handler that has got the sections `as` of a table. -/
structure Collected (F : TableFormat ι) (R : ι → ι → Prop) (gs : List (List ι)) (as : List Nat)
    (h : SectionHandler δ ι) : Prop where
  last : h._last_section_number.toNat = (gs.length - 1) % 256
  received : ∀ i, h._received i = true ↔ ∃ k ∈ as, UInt8.ofNat k = i
  entries : List.Forall₂ R (gathered gs as) h.table.entries.reverse

/-- The handler is complete when every number has arrived. -/
theorem is_complete_iff {h : SectionHandler δ ι} {as : List Nat} (hh : Collected F R gs as h) :
    h._is_complete = true ↔ Covers gs.length as := by
  unfold SectionHandler._is_complete
  rw [List.all_eq_true, hh.last]
  constructor
  · intro hall i hi
    obtain ⟨k, hk, hki⟩ := (hh.received _).1 (hall i (List.mem_range.2 (by omega)))
    have hmod := congrArg UInt8.toNat hki
    simp only [UInt8.toNat_ofNat'] at hmod
    exact ⟨k, hk, by omega⟩
  · intro hcov i hi
    have hi := List.mem_range.1 hi
    obtain ⟨k, hk, hki⟩ := hcov i (by omega)
    refine (hh.received _).2 ⟨k, hk, UInt8.toNat_inj.1 ?_⟩
    simp only [UInt8.toNat_ofNat']
    omega

/-- Each entry takes a byte at least. -/
theorem length_le_bytes (hg : ∀ e ∈ g, F.Carries R e) : g.length ≤ (F.bytes g).length := by
  induction g with
  | nil => simp
  | cons e g ih =>
    have hpos := (hg e List.mem_cons_self).pos
    have hih := ih fun e' h' => hg e' (List.mem_cons_of_mem e h')
    rw [bytes_cons, List.length_append, List.length_cons]
    omega

/-- One more section. -/
theorem to_table_spec {secs : List (TableSection δ)} {h : SectionHandler δ ι} {as : List Nat}
    {k : Nat} {s : TableSection δ} (hF : F.Framed) (hcut : CutInto F t secs gs)
    (hes : ∀ e ∈ t.entries, F.Carries R e) (hh : Collected F R gs as h) (hs : secs[k]? = some s) :
    ∃ h', h.to_table F s =
        .ok (h', if Covers gs.length (as ++ [k]) then some h'.table else none) ∧
      Collected F R gs (as ++ [k]) h' := by
  rw [hcut.get k] at hs
  obtain ⟨g, hg, rfl⟩ := Option.map_eq_some_iff.1 hs
  have hmem : g ∈ gs := List.mem_of_getElem? hg
  have hfits := hcut.fits g hmem
  have hhead := hF.partial_header
  have hgroup : ∀ e ∈ g, F.Carries R e := fun e he => hes e (by
    rw [← hcut.flatten]
    exact List.mem_flatten.2 ⟨g, hmem, he⟩)
  have htotal : (((UInt16.ofNat (F.DRAFT_SIZE.toNat + (F.bytes g).length + 1) -
      CRC32_SIZE.toUInt16).toNat : Int) - F.partial_header) = ((F.bytes g).length : Nat) := by
    have hsize : (UInt16.ofNat (F.DRAFT_SIZE.toNat + (F.bytes g).length + 1)).toNat =
        F.DRAFT_SIZE.toNat + (F.bytes g).length + 1 :=
      UInt16.toNat_ofNat_of_lt' (by show _ < 2 ^ 16; omega)
    have hcrc : CRC32_SIZE.toUInt16.toNat = 4 := rfl
    have hpos : 0 < F.partial_header ∨ F.partial_header = 0 := by omega
    rw [UInt16.toNat_sub_of_le _ _ (by rw [UInt16.le_iff_toNat_le, hsize, hcrc]; omega), hsize, hcrc]
    omega
  obtain ⟨t', hscan, es', hes', hall⟩ := @scan_spec δ ι F R g (F.bytes g).length
    ((F.bytes g).length + 1) 0 hgroup (Nat.zero_add _) (Nat.lt_succ_of_le (length_le_bytes hgroup))
    (h.table.turnOn (t.current_next_indicator % 2))
  have hold : (h.table.turnOn (t.current_next_indicator % 2)).entries = h.table.entries := by
    unfold SiTable.turnOn
    split <;> rfl
  rw [hold] at hes'
  have hnew : Collected F R gs (as ++ [k])
      { h with
        _received := fun i => i == (UInt16.ofNat k).toUInt8 || h._received i
        table := t' } := by
    refine ⟨hh.last, fun i => ?_, ?_⟩
    · have hk : (UInt16.ofNat k).toUInt8 = UInt8.ofNat k := by
        refine UInt8.toNat_inj.1 ?_
        simp
      simp only [Bool.or_eq_true, beq_iff_eq, hh.received, hk, List.mem_append,
        List.mem_singleton]
      constructor
      · rintro (rfl | ⟨j, hj, rfl⟩)
        · exact ⟨k, .inr rfl, rfl⟩
        · exact ⟨j, .inl hj, rfl⟩
      · rintro ⟨j, hj | rfl, rfl⟩
        · exact .inr ⟨j, hj, rfl⟩
        · exact .inl rfl
    · have hgk : gs.getD k [] = g := by simp [hg]
      simp only [gathered, List.flatMap_append, List.flatMap_singleton, hgk, hes',
        List.reverse_append, List.reverse_reverse]
      exact List.rel_append hh.entries hall
  refine ⟨_, ?_, hnew⟩
  simp only [SectionHandler.to_table, TableFormat.sectionOf, htotal]
  rw [hscan]
  refine congrArg (fun r => Except.ok (_, r)) ?_
  exact if_congr (is_complete_iff hnew) rfl rfl

/-- Further arrivals keep the numbers covered. -/
theorem Covers.mono {n : Nat} {as bs : List Nat} (h : Covers n as) (hsub : as ⊆ bs) :
    Covers n bs := fun i hi => by
  obtain ⟨k, hk, hki⟩ := h i hi
  exact ⟨k, hsub hk, hki⟩

/-- No arrival covers nothing. -/
theorem not_covers_nil (n : Nat) : ¬ Covers n [] := fun h => by
  obtain ⟨k, hk, -⟩ := h 0 (Nat.zero_le _)
  cases hk

/-- The handler returns a table at the first arrival with which it has seen every number. -/
theorem collect_spec {secs : List (TableSection δ)} {h : SectionHandler δ ι} {as : List Nat}
    (hF : F.Framed) (hcut : CutInto F t secs gs) (hes : ∀ e ∈ t.entries, F.Carries R e)
    (hh : Collected F R gs as h) (hnot : ¬ Covers gs.length as) (bs : List (Fin secs.length)) :
    ∃ r, h.collect F (bs.map secs.get) = .ok r ∧
      ((∃ pre t', r = some t' ∧ CompletedBy gs.length (as ++ bs.map (·.val)) pre ∧
          List.Forall₂ R (gathered gs pre) t'.entries.reverse) ∨
        (r = none ∧ ¬ Covers gs.length (as ++ bs.map (·.val)))) := by
  induction bs generalizing as h with
  | nil => exact ⟨none, rfl, .inr ⟨rfl, by simpa using hnot⟩⟩
  | cons b bs ih =>
    have hs : secs[b.val]? = some (secs.get b) := by simp
    obtain ⟨h', hto, hh'⟩ := to_table_spec hF hcut hes hh hs
    have hall : as ++ (b :: bs).map (·.val) = as ++ [b.val] ++ bs.map (·.val) := by simp
    rw [hall, List.map_cons, SectionHandler.collect, hto, bind_ok]
    by_cases hcov : Covers gs.length (as ++ [b.val])
    · rw [if_pos hcov]
      refine ⟨some h'.table, rfl, .inl ⟨as ++ [b.val], h'.table, rfl, ⟨?_, hcov, ?_⟩, hh'.entries⟩⟩
      · exact List.prefix_append _ _
      · intro q hq hcovq
        rcases List.prefix_concat_iff.1 hq with rfl | hq
        · rfl
        · exact absurd (hcovq.mono hq.subset) hnot
    · rw [if_neg hcov]
      exact ih hh' hcov

/-- A new handler returns a table as soon as the sections that arrived cover all numbers, with the
    entries of these sections, those of the last one first. -/
theorem reassemble_spec {secs : List (TableSection δ)} (hF : F.Framed) (hcut : CutInto F t secs gs)
    (hes : ∀ e ∈ t.entries, F.Carries R e) (bs : List (Fin secs.length)) :
    ∃ r, F.reassemble (bs.map secs.get) = .ok r ∧
      ((∃ pre t', r = some t' ∧ CompletedBy gs.length (bs.map (·.val)) pre ∧
          List.Forall₂ R (gathered gs pre) t'.entries.reverse) ∨
        (r = none ∧ ¬ Covers gs.length (bs.map (·.val)))) := by
  cases bs with
  | nil => exact ⟨none, rfl, .inr ⟨rfl, not_covers_nil _⟩⟩
  | cons b bs =>
    have hb : secs[b.val]? = some (secs.get b) := by simp
    rw [hcut.get b.val] at hb
    obtain ⟨g, -, hg⟩ := Option.map_eq_some_iff.1 hb
    have hnew : Collected F R gs [] (SectionHandler.init (secs.get b).draft) := by
      refine ⟨?_, by simp [SectionHandler.init], .nil⟩
      rw [← hg]
      simp [SectionHandler.init, TableFormat.sectionOf]
    exact collect_spec hF hcut hes hnew (not_covers_nil _) (b :: bs)

/-- A list of arrivals completes at one place only. -/
theorem CompletedBy.unique {n : Nat} {as p q : List Nat} (hp : CompletedBy n as p)
    (hq : CompletedBy n as q) : p = q := by
  rcases List.prefix_or_prefix_of_prefix hp.1 hq.1 with hpq | hqp
  · exact hq.2.2 p hpq hp.2.1
  · exact (hp.2.2 q hqp hq.2.1).symm

theorem CompletedBy.covers {n : Nat} {as p : List Nat} (hp : CompletedBy n as p) : Covers n as :=
  hp.2.1.mono hp.1.subset

/-- With at most 256 sections, each of which comes once, the table is complete with the last. -/
theorem completed_all {n : Nat} {as pre : List Nat} (hn : n ≤ 256) (has : as.Perm (List.range n))
    (hpre : CompletedBy n as pre) : pre = as := by
  have hnd : pre.Nodup := (has.nodup_iff.2 List.nodup_range).sublist hpre.1.sublist
  refine hpre.1.eq_of_length_le ?_
  rw [has.length_eq]
  refine List.Subperm.length_le (List.nodup_range.subperm fun k hk => ?_)
  have hk := List.mem_range.1 hk
  obtain ⟨j, hj, hjk⟩ := hpre.2.1 k (by omega)
  have hjn := List.mem_range.1 (has.subset (hpre.1.subset hj))
  rwa [show k = j by omega]

/-- A permutation of the numbers covers them. -/
theorem covers_all {n : Nat} {as : List Nat} (hpos : 0 < n) (has : as.Perm (List.range n)) :
    Covers n as := fun i hi =>
  ⟨i, has.mem_iff.2 (List.mem_range.2 (by omega)), by omega⟩

/-! ### What has been gathered -/

/-- Only entries of the groups are gathered. -/
theorem gathered_subset (gs : List (List ι)) (as : List Nat) : gathered gs as ⊆ gs.flatten := by
  intro e he
  obtain ⟨k, -, hk⟩ := List.mem_flatMap.1 he
  by_cases hlt : k < gs.length
  · rw [List.getD_eq_getElem?_getD, List.getElem?_eq_getElem hlt] at hk
    exact List.mem_flatten.2 ⟨gs[k], List.getElem_mem hlt, hk⟩
  · simp [List.getElem?_eq_none (Nat.not_lt.1 hlt)] at hk

/-- The sections with bytes are those of the groups with entries. -/
theorem onceEach_iff {secs : List (TableSection δ)} {pre : List Nat} (hcut : CutInto F t secs gs)
    (hes : ∀ e ∈ t.entries, F.Carries R e) :
    OnceEach secs pre ↔ ∀ k < gs.length, gs.getD k [] ≠ [] → pre.count k = 1 := by
  have hinfo : ∀ g ∈ gs, (F.bytes g ≠ [] ↔ g ≠ []) := by
    intro g hg
    refine ⟨fun h h' => h (by rw [h', bytes_nil]), fun h h' => h ?_⟩
    have hlen := length_le_bytes (F := F) (R := R) (g := g) fun e he => hes e (by
      rw [← hcut.flatten]
      exact List.mem_flatten.2 ⟨g, hg, he⟩)
    rw [h', List.length_nil, Nat.le_zero, List.length_eq_zero_iff] at hlen
    exact hlen
  constructor
  · intro h k hk hne
    have hget : gs.getD k [] = gs[k] := by simp [hk]
    rw [hget] at hne
    have hsec := hcut.get k
    rw [List.getElem?_eq_getElem hk, Option.map_some] at hsec
    exact h k _ hsec ((hinfo _ (List.getElem_mem hk)).2 hne)
  · intro h k s hs hne
    rw [hcut.get k] at hs
    obtain ⟨g, hg, rfl⟩ := Option.map_eq_some_iff.1 hs
    obtain ⟨hk, rfl⟩ := List.getElem?_eq_some_iff.1 hg
    refine h k hk ?_
    have hget : gs.getD k [] = gs[k] := by simp [hk]
    rw [hget]
    exact (hinfo _ (List.getElem_mem hk)).1 hne

/-- In order all entries are gathered. -/
theorem gathered_range (gs : List (List ι)) :
    gathered gs (List.range gs.length) = gs.flatten := by
  induction gs with
  | nil => rfl
  | cons g gs ih =>
    have htail : (List.range gs.length).flatMap (fun k => (g :: gs).getD (k + 1) []) =
        gathered gs (List.range gs.length) := by simp [gathered]
    rw [List.flatten_cons, ← ih, List.length_cons, List.range_succ_eq_map, gathered,
      List.flatMap_cons, List.flatMap_map, htail]
    simp

/-- Sections without entries do not matter. -/
theorem gathered_filter (gs : List (List ι)) (as : List Nat) :
    gathered gs (as.filter fun k => !(gs.getD k []).isEmpty) = gathered gs as := by
  induction as with
  | nil => rfl
  | cons k as ih =>
    unfold gathered at ih ⊢
    rw [List.filter_cons, List.flatMap_cons]
    split
    · rw [List.flatMap_cons, ih]
    · rename_i hk
      have hnil : gs.getD k [] = [] := by simpa using hk
      rw [hnil, List.nil_append, ih]

/-- If each section with entries has arrived once, the entries are those of the table. -/
theorem gathered_perm_of_once {pre : List Nat}
    (honce : ∀ k < gs.length, gs.getD k [] ≠ [] → pre.count k = 1) :
    (gathered gs pre).Perm gs.flatten := by
  have hlt : ∀ k, gs.getD k [] ≠ [] → k < gs.length := by
    intro k hne
    by_contra hk
    exact hne (by simp [List.getD_eq_getElem?_getD, List.getElem?_eq_none (Nat.not_lt.1 hk)])
  have hnd : (pre.filter fun k => !(gs.getD k []).isEmpty).Nodup := by
    refine List.nodup_iff_count_le_one.2 fun k => ?_
    by_cases hne : gs.getD k [] = []
    · have hnot : k ∉ pre.filter fun k => !(gs.getD k []).isEmpty := by
        intro hk
        have hfull := (List.mem_filter.1 hk).2
        rw [hne] at hfull
        cases hfull
      rw [List.count_eq_zero_of_not_mem hnot]
      exact Nat.zero_le 1
    · rw [List.count_filter (by simpa using hne)]
      exact Nat.le_of_eq (honce k (hlt k hne) hne)
  rw [← gathered_filter gs pre, ← gathered_range gs, ← gathered_filter gs (List.range _)]
  refine List.Perm.flatMap_right _ ((List.perm_ext_iff_of_nodup hnd
    (List.nodup_range.filter _)).2 fun k => ?_)
  simp only [List.mem_filter, List.mem_range, Bool.not_eq_true', List.isEmpty_eq_false_iff]
  constructor
  · exact fun h => ⟨hlt k h.2, h.2⟩
  · exact fun h => ⟨List.count_pos_iff.1 (by rw [honce k h.1 h.2]; exact Nat.one_pos), h.2⟩

/-- And otherwise some entry is missing, or there twice. -/
theorem once_of_gathered_perm {pre : List Nat} (hnd : gs.flatten.Nodup)
    (hperm : (gathered gs pre).Perm gs.flatten) {k : Nat} (hne : gs.getD k [] ≠ []) :
    pre.count k = 1 := by
  classical
  obtain ⟨e, he⟩ := List.exists_mem_of_ne_nil _ hne
  obtain ⟨hnds, hdisj⟩ := List.nodup_flatten.1 hnd
  have hidx : ∀ j, ∀ e', e' ∈ gs.getD j [] → ∃ hj : j < gs.length, gs.getD j [] = gs[j] :=
    fun j e' he' => by
      by_cases hj : j < gs.length
      · exact ⟨hj, by simp [hj]⟩
      · simp [List.getElem?_eq_none (Nat.not_lt.1 hj)] at he'
  have hgroup : ∀ j, ∀ e', e' ∈ gs.getD j [] → gs.getD j [] ∈ gs := by
    intro j e' he'
    obtain ⟨hj, hget⟩ := hidx j e' he'
    rw [hget]
    exact List.getElem_mem hj
  have hcount : ∀ j, List.count e (gs.getD j []) = if j = k then 1 else 0 := by
    intro j
    by_cases hjk : j = k
    · rw [if_pos hjk, hjk]
      exact List.count_eq_one_of_mem (hnds _ (hgroup k e he)) he
    · rw [if_neg hjk]
      refine List.count_eq_zero_of_not_mem fun hej => ?_
      obtain ⟨hj, hjget⟩ := hidx j e hej
      obtain ⟨hk, hkget⟩ := hidx k e he
      rw [hjget] at hej
      rw [hkget] at he
      rcases Nat.lt_or_gt_of_ne hjk with hlt | hlt
      · exact List.pairwise_iff_getElem.1 hdisj j k hj hk hlt hej he
      · exact List.pairwise_iff_getElem.1 hdisj k j hk hj hlt he hej
  have hsum : ∀ l : List Nat, (l.map fun j => if j = k then 1 else 0).sum = l.count k := by
    intro l
    induction l with
    | nil => rfl
    | cons j l ih =>
      rw [List.map_cons, List.sum_cons, ih, List.count_cons]
      simp [Nat.add_comm]
  have hone : List.count e gs.flatten = 1 :=
    List.count_eq_one_of_mem hnd (List.mem_flatten.2 ⟨_, hgroup k e he, he⟩)
  have hfun : (List.count e ∘ fun j => gs.getD j []) = fun j => if j = k then 1 else 0 :=
    funext hcount
  rw [← hperm.count_eq, gathered, List.count_flatMap, hfun, hsum] at hone
  exact hone

end Dvb
