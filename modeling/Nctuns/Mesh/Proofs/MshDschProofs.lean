import Nctuns.Mesh.MshDsch

/-!
# What comes back from the bytes of a message

The bytes give back the message itself, as far as its counters tell; and as long as no counter has gone round,
the arrays hold the items that were added.
-/

namespace Mesh

open Records

namespace MSH_DSCH

variable {m m' : MSH_DSCH}

/-! ## Writing and reading -/

/-- The counters and the arrays up to them are the same. -/
structure SameItems (m m' : MSH_DSCH) : Prop where
  f : m'.f = m.f
  scheduling : m'.Scheduling_f = m.Scheduling_f
  entry : ∀ i < m.Scheduling_f.NSchedEntry.toNat, m'.Scheduling_entry i = m.Scheduling_entry i
  request : ∀ i < m.f.NRequest.toNat, m'.Request i = m.Request i
  availability : ∀ i < m.f.NAvail.toNat, m'.Availability i = m.Availability i
  grant : ∀ i < m.f.NGrant.toNat, m'.Grant i = m.Grant i

/-- The bytes of a message with scheduling fields. -/
theorem copyTo_of_coord (h : m.f.CoordFlag = 0) :
    m.copyTo = [m.type] ++ (fieldCodec.put m.f ++ (schedulingCodec.put m.Scheduling_f ++
      (putAll entryCodec m.Scheduling_entry m.Scheduling_f.NSchedEntry.toNat ++
      (putAll requestCodec m.Request m.f.NRequest.toNat ++
      (putAll availabilityCodec m.Availability m.f.NAvail.toNat ++
      putAll grantCodec m.Grant m.f.NGrant.toNat))))) := by
  unfold copyTo
  rw [if_pos h, List.append_assoc]

/-- The message is as long as it says. -/
theorem length_copyTo (m : MSH_DSCH) : m.copyTo.length = m.getLen := by
  unfold copyTo getLen
  by_cases h : m.f.CoordFlag = 0
  · simp only [h, if_true, List.length_append, List.length_singleton, fieldCodec.length_put,
      schedulingCodec.length_put, length_putAll]
    omega
  · simp only [h, if_false, List.length_append, List.length_singleton, List.length_nil, fieldCodec.length_put,
      length_putAll]
    omega

/-- Where `copyTo` puts the requests. -/
def posRequest (m : MSH_DSCH) : ℕ :=
  1 + fieldCodec.size + schedulingCodec.size + m.Scheduling_f.NSchedEntry.toNat * entryCodec.size

/-- Where the availabilities begin. -/
def posAvail (m : MSH_DSCH) : ℕ := m.posRequest + m.f.NRequest.toNat * requestCodec.size

/-- Where the grants begin. -/
def posGrant (m : MSH_DSCH) : ℕ := m.posAvail + m.f.NAvail.toNat * availabilityCodec.size

/-- The message as it is read back. -/
theorem parse_copyTo_eq (h : m.f.CoordFlag = 0) :
    parse m.copyTo =
      { type := m.copyTo.getD 0 0
        f := m.f
        Scheduling_f := m.Scheduling_f
        Scheduling_entry := getAt entryCodec m.copyTo (1 + fieldCodec.size + schedulingCodec.size)
        Request := getAt requestCodec m.copyTo m.posRequest
        Availability := getAt availabilityCodec m.copyTo m.posAvail
        Grant := getAt grantCodec m.copyTo m.posGrant } := by
  have hf : fieldCodec.get (m.copyTo.drop 1) = m.f := by
    rw [copyTo_of_coord h]
    exact fieldCodec.get_put _ _
  have hs : schedulingCodec.get (m.copyTo.drop (1 + fieldCodec.size)) = m.Scheduling_f := by
    rw [copyTo_of_coord h]
    exact schedulingCodec.get_put _ _
  unfold parse
  simp only [hf, hs, h, if_true]
  rfl

/-- The constructor from the bytes of a message finds each array where `copyTo` has put it. -/
theorem parse_copyTo (h : m.f.CoordFlag = 0) : SameItems m (parse m.copyTo) := by
  rw [parse_copyTo_eq h, copyTo_of_coord h]
  have hlen : ∀ l : List Byte, ([m.type] ++ (fieldCodec.put m.f ++ (schedulingCodec.put m.Scheduling_f ++ l))).length =
      1 + fieldCodec.size + schedulingCodec.size + l.length := by
    intro l
    simp only [List.length_append, List.length_singleton, fieldCodec.length_put, schedulingCodec.length_put]
    omega
  refine ⟨rfl, rfl, ?_, ?_, ?_, ?_⟩
  · intro i hi
    have := getAt_putAll (c := entryCodec) m.Scheduling_entry hi (hlen [])
    simp only [List.append_assoc, List.append_nil] at this
    exact this _
  · intro i hi
    have hpre : _ = m.posRequest := (hlen (putAll entryCodec m.Scheduling_entry
      m.Scheduling_f.NSchedEntry.toNat)).trans (by rw [length_putAll]; rfl)
    have := getAt_putAll (c := requestCodec) m.Request hi hpre
    simp only [List.append_assoc] at this
    exact this _
  · intro i hi
    have hpre : _ = m.posAvail := (hlen (putAll entryCodec m.Scheduling_entry m.Scheduling_f.NSchedEntry.toNat ++
      putAll requestCodec m.Request m.f.NRequest.toNat)).trans (by
        rw [List.length_append, length_putAll, length_putAll, ← Nat.add_assoc]
        rfl)
    have := getAt_putAll (c := availabilityCodec) m.Availability hi hpre
    simp only [List.append_assoc] at this
    exact this _
  · intro i hi
    have hpre : _ = m.posGrant := (hlen (putAll entryCodec m.Scheduling_entry m.Scheduling_f.NSchedEntry.toNat ++
      (putAll requestCodec m.Request m.f.NRequest.toNat ++
      putAll availabilityCodec m.Availability m.f.NAvail.toNat))).trans (by
        rw [List.length_append, List.length_append, length_putAll, length_putAll, length_putAll, ← Nat.add_assoc,
          ← Nat.add_assoc]
        rfl)
    have := getAt_putAll (c := grantCodec) m.Grant hi hpre []
    simp only [List.append_assoc, List.append_nil] at this
    exact this

/-! ## Getting items -/

variable {cur : BitVec 16} {idx : ℕ}

/-- An availability as it is read back. -/
def availOf (cur : BitVec 16) (a : DSCH_AvailabilityIE) : Alloc_base :=
  ⟨BitVec.ofNat 12 (frame_sync a.StartNumber cur), persistence2frame a.Persistence, a.SlotStart,
    a.SlotRange.setWidth 8⟩

/-- A request as it is read back. -/
def requestOf (r : DSCH_RequestIE) : Alloc where
  frame_start := 0
  frame_range := persistence2frame r.DemandPersist
  slot_start := 0
  slot_range := r.DemandLevel
  link_id := r.LinkID

/-- A neighbour as it is read back. -/
def entryOf (e : DSCH_SchedEntry) : Entry :=
  ⟨(e.msbNbrNodeID.setWidth 16 <<< 8) + e.lsbNbrNodeID.setWidth 16, e.NextXmtMx, e.XmtHoldExp⟩

/-- The elements of an array, read one by one. -/
theorem getElem?_map_contents {α γ : Type} (r : α → γ) (arr : ℕ → α) (n : ℕ) :
    ((contents arr n).map r)[idx]? = if idx < n then some (r (arr idx)) else none := by
  split
  · next h => rw [List.getElem?_map, getElem?_contents h, Option.map_some]
  · next h => rw [List.getElem?_map, List.getElem?_eq_none (by simpa using h), Option.map_none]

/-- The availabilities are read back in order. -/
theorem get_availability_info_eq :
    m.get_availability_info idx cur = ((contents m.Availability m.f.NAvail.toNat).map (availOf cur))[idx]? := by
  rw [getElem?_map_contents, get_availability_info]
  by_cases h : idx < m.f.NAvail.toNat
  · rw [if_pos h, if_neg (by omega)]
    rfl
  · rw [if_neg h, if_pos (by omega)]

/-- The requests are read back in order. -/
theorem get_request_info_eq :
    m.get_request_info idx = ((contents m.Request m.f.NRequest.toNat).map requestOf)[idx]? := by
  rw [getElem?_map_contents, get_request_info]
  by_cases h : idx < m.f.NRequest.toNat
  · rw [if_pos h, if_neg (by omega)]
    rfl
  · rw [if_neg h, if_pos (by omega)]

/-- The neighbours are read back in order. -/
theorem get_nbr_sch_entry_eq :
    m.get_nbr_sch_entry idx =
      ((contents m.Scheduling_entry m.Scheduling_f.NSchedEntry.toNat).map entryOf)[idx]? := by
  rw [getElem?_map_contents]
  rfl

/-- The loop stops at the `idx`-th element of its direction. -/
theorem find_spec (m : MSH_DSCH) (d : BitVec 1) (k i idx : ℕ)
    (h : idx < (((List.range' i k).map m.Grant).filter fun g => g.Direction = d).length) :
    (((List.range' i k).map m.Grant).filter fun g => g.Direction = d)[idx]? = some (m.Grant (m.find d k i idx)) := by
  induction k generalizing i idx with
  | zero => simp at h
  | succ k ih =>
    rw [List.range'_succ, List.map_cons, List.filter_cons] at h ⊢
    unfold find
    by_cases hd : (m.Grant i).Direction = d
    · simp only [hd, decide_true, if_true] at h ⊢
      cases idx with
      | zero => rfl
      | succ idx =>
        rw [List.getElem?_cons_succ]
        exact ih (i + 1) idx (by simpa using h)
    · simp only [hd, decide_false, Bool.false_eq_true, if_false] at h ⊢
      exact ih (i + 1) idx h

/-- The grants of one direction. -/
theorem directed_eq (d : BitVec 1) :
    m.directed d = ((List.range' 0 m.f.NGrant.toNat).map m.Grant).filter fun g => g.Direction = d := by
  rw [← List.range_eq_range']
  rfl

/-- A grant that is not one way is the other. -/
theorem getNumConfirm_eq : m.getNumConfirm = (m.directed DIRECTION_FROM_REQUEST).length := by
  have hsplit : ∀ l : List DSCH_GrantIE,
      (l.filter fun g => g.Direction = DIRECTION_TO_REQUEST).length +
        (l.filter fun g => g.Direction = DIRECTION_FROM_REQUEST).length = l.length := by
    intro l
    induction l with
    | nil => rfl
    | cons g l ih =>
      have hg : g.Direction = 0 ∨ g.Direction = 1 := by
        have : ∀ d : BitVec 1, d = 0 ∨ d = 1 := by decide
        exact this _
      rcases hg with hg | hg
      · simp [hg, DIRECTION_TO_REQUEST, DIRECTION_FROM_REQUEST] at ih ⊢
        omega
      · simp [hg, DIRECTION_TO_REQUEST, DIRECTION_FROM_REQUEST] at ih ⊢
        omega
  have := hsplit ((List.range m.f.NGrant.toNat).map m.Grant)
  rw [List.length_map, List.length_range] at this
  unfold getNumConfirm getNumGrant directed
  omega

/-- The grants of one direction are read back in order. -/
theorem get_directed (d : BitVec 1) (n : ℕ) (hn : n = (m.directed d).length) :
    (if idx ≥ n then none else some (alloc_of (m.Grant (m.find d m.f.NGrant.toNat 0 idx)) cur)) =
      ((m.directed d).map fun g => alloc_of g cur)[idx]? := by
  rw [List.getElem?_map]
  by_cases h : idx < (m.directed d).length
  · rw [if_neg (by omega), directed_eq, find_spec m d _ 0 idx (by rwa [← directed_eq])]
    rfl
  · rw [if_pos (by omega), List.getElem?_eq_none (by omega)]
    rfl

/-- The grants are read back in order. -/
theorem get_grant_info_eq :
    m.get_grant_info idx cur = ((m.directed DIRECTION_TO_REQUEST).map fun g => alloc_of g cur)[idx]? :=
  get_directed _ _ rfl

/-- The confirmations are read back in order. -/
theorem get_confirm_info_eq :
    m.get_confirm_info idx cur = ((m.directed DIRECTION_FROM_REQUEST).map fun g => alloc_of g cur)[idx]? :=
  get_directed _ _ getNumConfirm_eq

/-- The items that the arrays hold. -/
structure Holds (m : MSH_DSCH) (ops : List Op) (cur : BitVec 16) : Prop where
  availability : (contents m.Availability m.f.NAvail.toNat).map (availOf cur) = availabilities ops
  request : (contents m.Request m.f.NRequest.toNat).map requestOf = requests ops
  grant : ((m.directed DIRECTION_TO_REQUEST).map fun g => alloc_of g cur) = grants ops
  confirm : ((m.directed DIRECTION_FROM_REQUEST).map fun g => alloc_of g cur) = confirms ops
  nbr : (contents m.Scheduling_entry m.Scheduling_f.NSchedEntry.toNat).map entryOf = nbrs ops

/-- What is read from the bytes is what the arrays hold. -/
theorem roundTrip_iff_holds (h : m.f.CoordFlag = 0) {ops : List Op} : RoundTrip m ops cur ↔ Holds m ops cur := by
  obtain ⟨hf, hs, he, hr, ha, hg⟩ := parse_copyTo h
  have hdir : ∀ d, (parse m.copyTo).directed d = m.directed d := by
    intro d
    unfold directed
    rw [hf]
    congr 1
    exact contents_congr hg
  have hav : ∀ idx, (parse m.copyTo).get_availability_info idx cur =
      ((contents m.Availability m.f.NAvail.toNat).map (availOf cur))[idx]? := by
    intro idx
    rw [get_availability_info_eq, hf, contents_congr ha]
  have hreq : ∀ idx, (parse m.copyTo).get_request_info idx =
      ((contents m.Request m.f.NRequest.toNat).map requestOf)[idx]? := by
    intro idx
    rw [get_request_info_eq, hf, contents_congr hr]
  have hnbr : ∀ idx, (parse m.copyTo).get_nbr_sch_entry idx =
      ((contents m.Scheduling_entry m.Scheduling_f.NSchedEntry.toNat).map entryOf)[idx]? := by
    intro idx
    rw [get_nbr_sch_entry_eq, hs, contents_congr he]
  constructor
  · rintro ⟨-, h1, h2, h3, h4, h5⟩
    simp only [hav, hreq, hnbr, get_grant_info_eq, get_confirm_info_eq, hdir] at h1 h2 h3 h4 h5
    exact ⟨List.ext_getElem? h1, List.ext_getElem? h2, List.ext_getElem? h3, List.ext_getElem? h4,
      List.ext_getElem? h5⟩
  · rintro ⟨h1, h2, h3, h4, h5⟩
    refine ⟨length_copyTo m, ?_, ?_, ?_, ?_, ?_⟩
    · intro idx
      rw [hav, h1]
    · intro idx
      rw [hreq, h2]
    · intro idx
      rw [get_grant_info_eq, hdir, h3]
    · intro idx
      rw [get_confirm_info_eq, hdir, h4]
    · intro idx
      rw [hnbr, h5]

/-! ## Adding items -/

/-- A range that has a code. -/
theorem persistence_back {r : BitVec 8} {p : BitVec 3} (h : frame2persistence r = some p) :
    persistence2frame p = r := by
  unfold frame2persistence at h
  repeat' split at h
  all_goals
    first
      | (cases h; subst_vars; rfl)
      | cases h

/-- A frame within 255 frames of the current one is found again from its low byte. -/
theorem frame_back {a : BitVec 12} (h : (a - cur.setWidth 12).toNat ≤ 255) :
    BitVec.ofNat 12 (frame_sync (a.setWidth 8) cur) = a := by
  apply BitVec.eq_of_toNat_eq
  have ha := a.isLt
  have hc := cur.isLt
  have hmax : FRAME_START_MAX = 256 := rfl
  rw [BitVec.toNat_sub, BitVec.toNat_setWidth] at h
  rw [BitVec.toNat_ofNat]
  unfold frame_sync
  rw [BitVec.toNat_setWidth]
  dsimp only
  split <;> omega

/-- A range of seven bits. -/
theorem range_back {r : BitVec 8} (h : r.toNat ≤ 127) : (r.setWidth 7).setWidth 8 = r := by
  apply BitVec.eq_of_toNat_eq
  rw [BitVec.toNat_setWidth, BitVec.toNat_setWidth]
  omega

/-- Of a node identifier the lower byte is left. -/
def cut (e : Entry) : Entry := { e with _node_id := e.node_id.setWidth 16 }

/-- A neighbour loses the upper half of its number. -/
theorem entry_back (e : Entry) :
    entryOf ⟨e.node_id >>> 8, e.node_id &&& 0xff, e._next_tx_mx, e._tx_holdoff_exp⟩ = cut e := by
  have h1 : e.node_id >>> 8 = 0 := by
    apply BitVec.eq_of_toNat_eq
    have := e.node_id.isLt
    rw [BitVec.toNat_ushiftRight, Nat.shiftRight_eq_div_pow]
    exact Nat.div_eq_of_lt this
  have h2 : e.node_id &&& 0xff = e.node_id := BitVec.and_allOnes
  unfold entryOf cut
  rw [h1, h2]
  simp

/-- A neighbour whose number has eight bits is kept. -/
theorem cut_eq_self_iff (e : Entry) : cut e = e ↔ e._node_id.toNat < 256 := by
  have hid : (cut e)._node_id.toNat = e._node_id.toNat % 256 := by
    have := e._node_id.isLt
    simp only [cut, Entry.node_id, BitVec.toNat_setWidth]
    omega
  constructor
  · intro h
    rw [h] at hid
    omega
  · intro h
    have : (cut e)._node_id = e._node_id := BitVec.eq_of_toNat_eq (by omega)
    cases e
    simp only [cut] at this ⊢
    rw [this]

/-- The grants and confirms with their directions, in the order in which they were added. -/
def directions (ops : List Op) : List (BitVec 1 × Alloc) :=
  ops.filterMap fun
    | .grant a => some (DIRECTION_TO_REQUEST, a)
    | .confirm a => some (DIRECTION_FROM_REQUEST, a)
    | _ => none

/-- The grants are what goes one way. -/
theorem grants_eq (ops : List Op) :
    grants ops = ((directions ops).filter fun x => x.1 = DIRECTION_TO_REQUEST).map Prod.snd := by
  induction ops with
  | nil => rfl
  | cons op ops ih =>
    unfold grants directions at ih ⊢
    cases op <;> simp [ih, DIRECTION_TO_REQUEST, DIRECTION_FROM_REQUEST]

/-- The confirmations are what goes the other way. -/
theorem confirms_eq (ops : List Op) :
    confirms ops = ((directions ops).filter fun x => x.1 = DIRECTION_FROM_REQUEST).map Prod.snd := by
  induction ops with
  | nil => rfl
  | cons op ops ih =>
    unfold confirms directions at ih ⊢
    cases op <;> simp [ih, DIRECTION_TO_REQUEST, DIRECTION_FROM_REQUEST]

/-- The message after the items `done`, for a message that began with the counter `j` of neighbours: the
    counters of four bits have gone round after sixteen items. -/
structure Filled (j : ℕ) (cur : BitVec 16) (done : List Op) (m : MSH_DSCH) : Prop where
  coord : m.f.CoordFlag = 0
  navail : m.f.NAvail.toNat = (availabilities done).length % 16
  availability : (availabilities done).length ≤ 15 →
    (contents m.Availability m.f.NAvail.toNat).map (availOf cur) = availabilities done
  nrequest : m.f.NRequest.toNat = (requests done).length % 16
  request : (requests done).length ≤ 15 →
    (contents m.Request m.f.NRequest.toNat).map requestOf = requests done
  grant : (contents m.Grant m.f.NGrant.toNat).map (fun g => (g.Direction, alloc_of g cur)) = directions done
  nnbr : m.Scheduling_f.NSchedEntry.toNat = j + (nbrs done).length
  nbr : (contents (fun i => m.Scheduling_entry (j + i)) (nbrs done).length).map entryOf = (nbrs done).map cut

/-- An empty message. -/
theorem Filled.fresh (memory : MSH_DSCH) (cur : BitVec 16) :
    Filled memory.Scheduling_f.NSchedEntry.toNat cur [] (fresh memory) := by
  refine ⟨rfl, rfl, fun _ => rfl, rfl, fun _ => rfl, rfl, ?_, rfl⟩
  simp [MSH_DSCH.fresh, nbrs]

/-- What is read of an array after one more item. -/
theorem map_contents_update {α γ : Type} (r : α → γ) (arr : ℕ → α) (n : ℕ) (x : α) :
    (contents (Function.update arr n x) (n + 1)).map r = (contents arr n).map r ++ [r x] := by
  rw [contents_update, List.map_append, List.map_singleton]

/-- An availability is added. -/
theorem Filled.add_availability {j : ℕ} {done : List Op} {a : Alloc_base} (hm : Filled j cur done m)
    (hfits : (Op.availability a).Fits cur) (h : m.encapsulate_availability a = some m') :
    Filled j cur (done ++ [.availability a]) m' := by
  have hitems : availabilities (done ++ [.availability a]) = availabilities done ++ [a] := by
    simp [availabilities]
  have hreq : requests (done ++ [.availability a]) = requests done := by simp [requests]
  have hdir : directions (done ++ [.availability a]) = directions done := by simp [directions]
  have hnbr : nbrs (done ++ [.availability a]) = nbrs done := by simp [nbrs]
  have hn := hm.navail
  unfold encapsulate_availability at h
  dsimp only at h
  split at h
  · cases h
  · obtain ⟨p, hp, h⟩ := Option.bind_eq_some_iff.1 h
    cases h
    have hnext : (m.f.NAvail + 1).toNat = (m.f.NAvail.toNat + 1) % 16 := by rw [BitVec.toNat_add]; rfl
    refine ⟨hm.coord, ?_, ?_, ?_, ?_, ?_, ?_, ?_⟩
    · rw [hitems, List.length_append, List.length_singleton]
      show (m.f.NAvail + 1).toNat = _
      omega
    · rw [hitems, List.length_append, List.length_singleton]
      intro hle
      have hn' : (m.f.NAvail + 1).toNat = m.f.NAvail.toNat + 1 := by omega
      show (contents _ (m.f.NAvail + 1).toNat).map _ = _
      rw [hn', map_contents_update, hm.availability (by omega)]
      congr 1
      simp only [availOf, persistence_back hp, frame_back hfits.1, range_back hfits.2]
    · rw [hreq]
      exact hm.nrequest
    · rw [hreq]
      exact hm.request
    · rw [hdir]
      exact hm.grant
    · rw [hnbr]
      exact hm.nnbr
    · rw [hnbr]
      exact hm.nbr

/-- A request is added. -/
theorem Filled.add_request {j : ℕ} {done : List Op} {a : Alloc} (hm : Filled j cur done m)
    (h : m.encapsulate_request a = some m') : Filled j cur (done ++ [.request a]) m' := by
  have hitems : requests (done ++ [.request a]) =
      requests done ++ [{ a with frame_start := 0, slot_start := 0 }] := by
    simp [requests]
  have hav : availabilities (done ++ [.request a]) = availabilities done := by simp [availabilities]
  have hdir : directions (done ++ [.request a]) = directions done := by simp [directions]
  have hnbr : nbrs (done ++ [.request a]) = nbrs done := by simp [nbrs]
  have hn := hm.nrequest
  unfold encapsulate_request at h
  dsimp only at h
  split at h
  · cases h
  · obtain ⟨p, hp, h⟩ := Option.bind_eq_some_iff.1 h
    cases h
    have hnext : (m.f.NRequest + 1).toNat = (m.f.NRequest.toNat + 1) % 16 := by rw [BitVec.toNat_add]; rfl
    refine ⟨hm.coord, ?_, ?_, ?_, ?_, ?_, ?_, ?_⟩
    · rw [hav]
      exact hm.navail
    · rw [hav]
      exact hm.availability
    · rw [hitems, List.length_append, List.length_singleton]
      show (m.f.NRequest + 1).toNat = _
      omega
    · rw [hitems, List.length_append, List.length_singleton]
      intro hle
      have hn' : (m.f.NRequest + 1).toNat = m.f.NRequest.toNat + 1 := by omega
      show (contents _ (m.f.NRequest + 1).toNat).map _ = _
      rw [hn', map_contents_update, hm.request (by omega)]
      congr 1
      simp only [requestOf, persistence_back hp]
    · rw [hdir]
      exact hm.grant
    · rw [hnbr]
      exact hm.nnbr
    · rw [hnbr]
      exact hm.nbr

/-- A grant or confirm is added with its direction. -/
theorem Filled.add_direction {j : ℕ} {done : List Op} {a : Alloc} {d : BitVec 1} {p : BitVec 3}
    (hm : Filled j cur done m) (op : Op) (old : DSCH_GrantIE)
    (hav : availabilities (done ++ [op]) = availabilities done)
    (hreq : requests (done ++ [op]) = requests done) (hnbr : nbrs (done ++ [op]) = nbrs done)
    (hdir : directions (done ++ [op]) = directions done ++ [(d, a)])
    (hfits : Near cur a.toAlloc_base) (hp : frame2persistence a.frame_range = some p)
    (hi : ¬ m.f.NGrant.toNat ≥ NF_GRANT_IE_MAX) :
    Filled j cur (done ++ [op]) { m with
      f := { m.f with NGrant := m.f.NGrant + 1 }
      Grant := Function.update m.Grant m.f.NGrant.toNat { old with
        LinkID := a.link_id
        StartNumber := a.frame_start.setWidth 8
        SlotStart := a.slot_start
        SlotRange := a.slot_range
        Direction := d
        Persistence := p } } := by
  have hmax : NF_GRANT_IE_MAX = 63 := rfl
  have hn' : (m.f.NGrant + 1).toNat = m.f.NGrant.toNat + 1 := by
    rw [BitVec.toNat_add]
    exact Nat.mod_eq_of_lt (show m.f.NGrant.toNat + 1 < 64 by omega)
  refine ⟨hm.coord, ?_, ?_, ?_, ?_, ?_, ?_, ?_⟩
  · rw [hav]
    exact hm.navail
  · rw [hav]
    exact hm.availability
  · rw [hreq]
    exact hm.nrequest
  · rw [hreq]
    exact hm.request
  · show (contents _ (m.f.NGrant + 1).toNat).map _ = _
    rw [hn', map_contents_update, hm.grant, hdir]
    congr 3
    simp only [alloc_of, persistence_back hp, frame_back hfits]
  · rw [hnbr]
    exact hm.nnbr
  · rw [hnbr]
    exact hm.nbr

/-- A grant is added. -/
theorem Filled.add_grant {j : ℕ} {done : List Op} {a : Alloc} (hm : Filled j cur done m)
    (hfits : (Op.grant a).Fits cur) (h : m.encapsulate_grant a = some m') :
    Filled j cur (done ++ [.grant a]) m' := by
  unfold encapsulate_grant at h
  dsimp only at h
  split at h
  · cases h
  · next hi =>
    obtain ⟨p, hp, h⟩ := Option.bind_eq_some_iff.1 h
    cases h
    exact hm.add_direction _ _ (by simp [availabilities]) (by simp [requests]) (by simp [nbrs]) (by simp [directions])
      hfits hp hi

/-- A confirmation is added. -/
theorem Filled.add_confirm {j : ℕ} {done : List Op} {a : Alloc} (hm : Filled j cur done m)
    (hfits : (Op.confirm a).Fits cur) (h : m.encapsulate_confirm a = some m') :
    Filled j cur (done ++ [.confirm a]) m' := by
  unfold encapsulate_confirm encapsulate_grant at h
  dsimp only at h
  split at h
  · cases h
  · next hi =>
    obtain ⟨m₁, h₁, h⟩ := Option.bind_eq_some_iff.1 h
    obtain ⟨p, hp, h₁⟩ := Option.bind_eq_some_iff.1 h₁
    cases h₁
    cases h
    have := hm.add_direction (d := DIRECTION_FROM_REQUEST) (.confirm a) (m.Grant m.f.NGrant.toNat)
      (by simp [availabilities]) (by simp [requests]) (by simp [nbrs]) (by simp [directions]) hfits hp hi
    simpa only [Function.update_self, Function.update_idem] using this

/-- A neighbour is added. -/
theorem Filled.add_nbr {j : ℕ} {done : List Op} {e : Entry} (hm : Filled j cur done m)
    (h : m.add_nbr_sch_entry e = some m') : Filled j cur (done ++ [.nbr e]) m' := by
  have hitems : nbrs (done ++ [.nbr e]) = nbrs done ++ [e] := by simp [nbrs]
  have hav : availabilities (done ++ [.nbr e]) = availabilities done := by simp [availabilities]
  have hreq : requests (done ++ [.nbr e]) = requests done := by simp [requests]
  have hdir : directions (done ++ [.nbr e]) = directions done := by simp [directions]
  have hn := hm.nnbr
  unfold add_nbr_sch_entry at h
  dsimp only at h
  split at h
  · cases h
  · cases h
    have hn' : (m.Scheduling_f.NSchedEntry + 1).toNat = m.Scheduling_f.NSchedEntry.toNat + 1 := by
      rw [BitVec.toNat_add]
      exact Nat.mod_eq_of_lt (show m.Scheduling_f.NSchedEntry.toNat + 1 < 256 by omega)
    refine ⟨hm.coord, ?_, ?_, ?_, ?_, ?_, ?_, ?_⟩
    · rw [hav]
      exact hm.navail
    · rw [hav]
      exact hm.availability
    · rw [hreq]
      exact hm.nrequest
    · rw [hreq]
      exact hm.request
    · rw [hdir]
      exact hm.grant
    · rw [hitems, List.length_append, List.length_singleton]
      show (m.Scheduling_f.NSchedEntry + 1).toNat = _
      omega
    · rw [hitems, List.length_append, List.length_singleton, List.map_append, List.map_singleton, ← entry_back,
        ← hm.nbr]
      rw [← map_contents_update]
      congr 1
      refine contents_congr fun i hi => ?_
      rw [hn]
      show Function.update m.Scheduling_entry (j + (nbrs done).length) _ (j + i) = _
      by_cases hij : i = (nbrs done).length
      · subst hij
        rw [Function.update_self, Function.update_self]
      · rw [Function.update_of_ne hij, Function.update_of_ne (by omega)]

/-- **One element** is added. -/
theorem Filled.add {j : ℕ} {done : List Op} {op : Op} (hm : Filled j cur done m) (hfits : op.Fits cur)
    (h : m.add op = some m') : Filled j cur (done ++ [op]) m' := by
  cases op with
  | availability a => exact hm.add_availability hfits h
  | request a => exact hm.add_request h
  | grant a => exact hm.add_grant hfits h
  | confirm a => exact hm.add_confirm hfits h
  | nbr e => exact hm.add_nbr h

/-- Elements are added. -/
theorem Filled.addAll {j : ℕ} {done ops : List Op} (hm : Filled j cur done m) (hfits : ∀ op ∈ ops, op.Fits cur)
    (h : m.addAll ops = some m') : Filled j cur (done ++ ops) m' := by
  induction ops generalizing done m with
  | nil =>
    cases h
    rw [List.append_nil]
    exact hm
  | cons op ops ih =>
    obtain ⟨m₁, h₁, h⟩ := Option.bind_eq_some_iff.1 h
    have := ih (hm.add (hfits op List.mem_cons_self) h₁) (fun op' h' => hfits op' (List.mem_cons_of_mem _ h')) h
    rwa [List.append_assoc] at this

/-! ## The round trip -/

/-- What is read back from a filled message. -/
theorem Filled.holds_iff {j : ℕ} {ops : List Op} (hm : Filled j cur ops m) :
    Holds m ops cur ↔ j = 0 ∧ (availabilities ops).length ≤ 15 ∧ (requests ops).length ≤ 15 ∧
      ∀ e ∈ nbrs ops, e._node_id.toNat < 256 := by
  have hdirected : ∀ d, ((m.directed d).map fun g => alloc_of g cur) =
      ((directions ops).filter fun x => x.1 = d).map Prod.snd := by
    intro d
    rw [← hm.grant, List.filter_map, List.map_map]
    rfl
  have hgrant : ((m.directed DIRECTION_TO_REQUEST).map fun g => alloc_of g cur) = grants ops :=
    (hdirected _).trans (grants_eq ops).symm
  have hconfirm : ((m.directed DIRECTION_FROM_REQUEST).map fun g => alloc_of g cur) = confirms ops :=
    (hdirected _).trans (confirms_eq ops).symm
  constructor
  · intro h
    have hav := congrArg List.length h.availability
    have hreq := congrArg List.length h.request
    have hnbr := congrArg List.length h.nbr
    rw [List.length_map, length_contents] at hav hreq hnbr
    have h1 := hm.navail
    have h2 := hm.nrequest
    have h3 := hm.nnbr
    have hj : j = 0 := by omega
    refine ⟨hj, by omega, by omega, ?_⟩
    have hcut : (nbrs ops).map cut = nbrs ops := by
      rw [← hm.nbr, ← hnbr]
      simpa only [hj, Nat.zero_add] using h.nbr
    intro e he
    exact (cut_eq_self_iff e).1 (List.map_inj_left.1 (hcut.trans (List.map_id _).symm) e he)
  · rintro ⟨hj, hav, hreq, hid⟩
    refine ⟨hm.availability hav, hm.request hreq, hgrant, hconfirm, ?_⟩
    have hnbr := hm.nbr
    rw [List.map_congr_left (fun e he => (cut_eq_self_iff e).2 (hid e he)), List.map_id'] at hnbr
    rw [hm.nnbr]
    simpa only [hj, Nat.zero_add] using hnbr

/-- The items are read back exactly if no counter of four bits has gone round, the counter of the neighbours
    began with zero, and the node identifiers fit into a byte. -/
theorem round_trip_iff (memory m : MSH_DSCH) (ops : List Op) (cur : BitVec 16)
    (h : (fresh memory).addAll ops = some m) (hfits : ∀ op ∈ ops, op.Fits cur) :
    RoundTrip m ops cur ↔
      memory.Scheduling_f.NSchedEntry.toNat = 0 ∧ (availabilities ops).length ≤ 15 ∧
        (requests ops).length ≤ 15 ∧ ∀ e ∈ nbrs ops, e._node_id.toNat < 256 := by
  have hm := (Filled.fresh memory cur).addAll hfits h
  rw [List.nil_append] at hm
  exact (roundTrip_iff_holds hm.coord).trans hm.holds_iff

/-- Memory that holds zeros. -/
def blank : MSH_DSCH where
  type := 0
  f := ⟨0, 0, 0, 0, 0, 0, 0⟩
  Scheduling_f := ⟨0, 0, 0⟩
  Scheduling_entry _ := ⟨0, 0, 0, 0⟩
  Availability _ := ⟨0, 0, 0, 0, 0, 0⟩
  Request _ := ⟨0, 0, 0, 0⟩
  Grant _ := ⟨0, 0, 0, 0, 0, 0, 0⟩

/-- One item of each kind, around the wrap of the frame numbers. -/
def oneOfEach : List Op :=
  [.availability ⟨4090, 8, 3, 20⟩, .request ⟨⟨0, 128, 0, 10⟩, 1⟩, .grant ⟨⟨4, 255, 3, 20⟩, 2⟩,
    .confirm ⟨⟨100, 32, 5, 7⟩, 3⟩, .nbr ⟨5, 3, 2⟩]

/-- A message with one element of each kind. -/
theorem round_trip_iff_one_of_each :
    ∃ m, (fresh blank).addAll oneOfEach = some m ∧
      (RoundTrip m oneOfEach 4080 ↔
        blank.Scheduling_f.NSchedEntry.toNat = 0 ∧ (availabilities oneOfEach).length ≤ 15 ∧
          (requests oneOfEach).length ≤ 15 ∧ ∀ e ∈ nbrs oneOfEach, e._node_id.toNat < 256) :=
  ⟨_, rfl, round_trip_iff blank _ oneOfEach 4080 rfl (by decide)⟩

/-- The node 300 comes back as the node 44; and of sixteen availabilities none comes back. -/
theorem node_cut_and_items_lost :
    (¬ ∀ memory m ops cur, (fresh memory).addAll ops = some m → (∀ op ∈ ops, op.Fits cur) →
      ∀ idx, (parse m.copyTo).get_nbr_sch_entry idx = (nbrs ops)[idx]?) ∧
    ¬ ∀ memory m ops cur, (fresh memory).addAll ops = some m → (∀ op ∈ ops, op.Fits cur) →
      ∀ idx, (parse m.copyTo).get_availability_info idx cur = (availabilities ops)[idx]? := by
  constructor
  · intro h
    exact absurd (h blank _ [.nbr ⟨300, 3, 2⟩] 0 rfl (by decide) 0) (by decide)
  · intro h
    exact absurd (h blank _ (List.replicate 16 (.availability ⟨0, 1, 0, 1⟩)) 0 rfl (by decide) 0) (by decide)

end MSH_DSCH

end Mesh
