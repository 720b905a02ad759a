import Mathlib.Data.List.GetD
import Nctuns.Lib.Outcome
import Nctuns.Lib.Run
import Nctuns.Packet.Info

/-!
# The attributes of a packet as a finite map

Each `PT_INFO` pbuf holds one slot, so the pbufs behind a packet's own one denote a list of names and
values with distinct names. `pkt_getinfo` is a lookup in this list, `pkt_addinfo` an update of it or a
new entry at its end, and `copy` builds a list of other pbufs that denotes the same.
-/

namespace Packet

open Memory PtrChain

/-- One slot fills an attribute pbuf. -/
theorem Abi.one_slot (t : Abi) :
    t.p_infobuf + t.INFOSIZE = PLEN ∧ INFONAME + 1 + t.INFOBODY = t.INFOSIZE ∧ 0 < t.INFOSIZE := by
  cases t <;> decide

variable {κ : Type*} {e : Env} {key name info iname : List Byte} {c c' : Cell κ}

/-! ## Names -/

/-- `strncmp` compares the first characters of strings. -/
theorem strneq_iff {n : Nat} {p : Nat → Byte} (hp : ∀ k < n, p k = key.getD k 0) (hkey : 0 ∉ key)
    (hlen : key.length ≤ n) (hname : 0 ∉ name) :
    strneq p (cstr name) n = true ↔ key = name.take n := by
  induction n generalizing p key name with
  | zero => simpa [strneq] using hlen
  | succ n ih =>
    have h0 := hp 0 (by omega)
    cases key with
    | nil =>
      cases name with
      | nil => simp [strneq, cstr, h0]
      | cons y name =>
        have hy : (0 : Byte) ≠ y := fun hy => hname (hy ▸ List.mem_cons_self)
        simp [strneq, cstr, h0, hy]
    | cons x key =>
      have hx : x ≠ 0 := fun hx => hkey (hx ▸ List.mem_cons_self)
      have h0 : p 0 = x := h0
      cases name with
      | nil => simp [strneq, cstr, h0, hx]
      | cons y name =>
        have htail : strneq (fun k => p (k + 1)) (cstr name) n = true ↔ key = name.take n := by
          refine ih (fun k hk => ?_) (fun h => hkey (List.mem_cons_of_mem x h))
            (by simpa using hlen) fun h => hname (List.mem_cons_of_mem y h)
          rw [hp (k + 1) (by omega), List.getD_cons_succ]
        have hstep : strneq p (cstr (y :: name)) (n + 1) =
            if x ≠ y then false else strneq (fun k => p (k + 1)) (cstr name) n := by
          simp only [strneq, h0, if_neg hx]
          rfl
        rw [hstep, List.take_succ_cons, List.cons.injEq]
        by_cases hxy : x = y <;> simp [hxy, htail]

/-- What `strncpy` writes is the start of the name, filled up with zero bytes. -/
theorem length_strncpy (name : List Byte) (n : Nat) : (strncpy name n).length = n := by
  simp [strncpy]

/-- A copy of a name is its characters, then zeros. -/
theorem strncpy_getElem {k n : Nat} (hk : k < (strncpy name n).length) :
    (strncpy name n)[k] = (name.take n).getD k 0 := by
  have hn : k < n := by simpa [strncpy] using hk
  simp only [strncpy, List.getElem_take]
  by_cases hk' : k < name.length
  · rw [List.getElem_append_left hk', List.getD_eq_getElem _ _ (by simp; omega), List.getElem_take]
  · rw [List.getElem_append_right (by omega), List.getElem_replicate,
      List.getD_eq_default _ _ (by simp; omega)]

/-! ## Slots -/

/-- The pbuf holds one slot, with a name and a value. -/
structure Slot (e : Env) (c : Cell κ) (key info : List Byte) : Prop where
  isInfo : c.isInfo = true
  len : c.p_len = e.abi.INFOSIZE
  dat : c.p_dat = e.abi.p_infobuf
  key_len : key.length ≤ INFONAME
  key_str : 0 ∉ key
  name : ∀ k < INFONAME, c.mem (e.abi.p_infobuf + k) = key.getD k 0
  fits : info.length ≤ e.abi.INFOBODY
  value : ∀ k, (hk : k < info.length) → c.mem (e.abi.p_infobuf + INFONAME + 1 + k) = info[k]

namespace Slot

theorem link (h : Slot e c key info) (p_next : Option κ) : Slot e { c with p_next } key info :=
  ⟨h.isInfo, h.len, h.dat, h.key_len, h.key_str, h.name, h.fits, h.value⟩

/-- The slot of a copied pbuf. -/
theorem copied (h : Slot e c key info) :
    Slot e { c with mem := copy e.junk 0 c.mem PLEN, p_dat := PLEN - c.p_len } key info := by
  have habi := e.abi.one_slot
  have hfits := h.fits
  refine ⟨h.isInfo, h.len, ?_, h.key_len, h.key_str, fun k hk => ?_, h.fits, fun k hk => ?_⟩
  · simp only [h.len]
    omega
  · simp only
    rw [copy_inside (by omega) (by omega), Nat.sub_zero, h.name k hk]
  · simp only
    rw [copy_inside (by omega) (by omega), Nat.sub_zero, h.value k hk]

/-- A new value in a slot. -/
theorem write (h : Slot e c key iname) (hfits : info.length ≤ e.abi.INFOBODY) :
    Slot e (c.write (e.abi.p_infobuf + INFONAME + 1) info) key info := by
  refine ⟨h.isInfo, h.len, h.dat, h.key_len, h.key_str, fun k hk => ?_, hfits, fun k hk => ?_⟩
  · simp only [Cell.write]
    rw [copy_outside (by omega), h.name k hk]
  · simp only [Cell.write]
    rw [copy_inside (by omega) (by omega), ofList_of_lt (by omega)]
    congr 1
    omega

/-- `INFO_COPYIN` into an empty pbuf. -/
theorem copyin (hinfo : c.isInfo = true) (hlen : c.p_len = 0) (hdat : c.p_dat = PLEN)
    (hname : 0 ∉ name) (hfits : info.length ≤ e.abi.INFOBODY) :
    Slot e (c.copyin e name info) (name.take INFONAME) info := by
  have habi := e.abi.one_slot
  have hp : c.p_dat - e.abi.INFOSIZE = e.abi.p_infobuf := by omega
  simp only [Cell.copyin, hp]
  refine ⟨hinfo, by simp [Cell.write, hlen], rfl, by simp, fun h => hname (List.mem_of_mem_take h),
    fun k hk => ?_, hfits, fun k hk => ?_⟩
  · have hk' : k < (strncpy name INFONAME).length := by rwa [length_strncpy]
    simp only [Cell.write]
    rw [copy_outside (by omega), copy_outside (by omega), copy_inside (by omega) (by omega),
      Int.toNat_natCast, Nat.add_sub_cancel_left, ofList_of_lt hk', strncpy_getElem]
  · simp only [Cell.write]
    rw [copy_inside (by omega) (by omega), ofList_of_lt (by omega)]
    congr 1
    omega

/-- The search of a pbuf is a comparison with its name. -/
theorem slotWalk_eq (h : Slot e c key info) (hname : 0 ∉ iname) :
    c.slotWalk e iname PLEN (PLEN - e.abi.INFOSIZE) c.p_len =
      if key = iname.take INFONAME then some ((e.abi.p_infobuf : Int) + INFONAME + 1) else none := by
  have habi := e.abi.one_slot
  have hp : (PLEN : Int) - e.abi.INFOSIZE = e.abi.p_infobuf := by omega
  have hcmp := strneq_iff (p := fun k => c.mem ((e.abi.p_infobuf : Int).toNat + k)) h.name h.key_str
    h.key_len hname
  obtain ⟨fuel, hfuel⟩ : ∃ k, PLEN = k + 2 := ⟨126, rfl⟩
  have hin : (e.abi.p_infobuf : Int) ≥ e.abi.p_infobuf ∧ c.p_len > 0 := ⟨le_rfl, by rw [h.len]; omega⟩
  have hout : ¬ ((e.abi.p_infobuf : Int) - e.abi.INFOSIZE ≥ e.abi.p_infobuf ∧
      c.p_len - e.abi.INFOSIZE > 0) := by omega
  rw [hp, hfuel, Cell.slotWalk, if_pos hin, Cell.slotWalk, if_neg hout]
  exact if_congr hcmp rfl rfl

end Slot

/-! ## The list of a packet -/

namespace InfoStore

variable {s s' : InfoStore κ} {p q k a : κ} {ptr : Option κ} {L : List (κ × List Byte × List Byte)}

/-- The links of the pbufs. -/
def next (s : InfoStore κ) (k : κ) : Option κ := (s.pbuf k).p_next

/-- The pbufs linked behind that of `p` hold the names and values `L`. -/
structure Has (e : Env) (s : InfoStore κ) (p : κ) (L : List (κ × List Byte × List Byte)) : Prop where
  chain : IsChain s.next (some p) (p :: L.map Prod.fst)
  data : (s.pbuf p).isInfo = false
  slots : ∀ x ∈ L, Slot e (s.pbuf x.1) x.2.1 x.2.2
  keys : ((L.map Prod.snd).map Prod.fst).Nodup
  alloc : ∀ k ∈ p :: L.map Prod.fst, k ∈ s.alloc

/-- A packet depends on its own pbufs only. -/
theorem Has.frame (h : Has e s p L) (hpbuf : ∀ k ∈ p :: L.map Prod.fst, s'.pbuf k = s.pbuf k)
    (halloc : s.alloc ⊆ s'.alloc) : Has e s' p L where
  chain := h.chain.congr fun k hk => by rw [next, next, hpbuf k hk]
  data := by rw [hpbuf p List.mem_cons_self, h.data]
  slots x hx := by
    rw [hpbuf x.1 (List.mem_cons_of_mem p (List.mem_map_of_mem hx))]
    exact h.slots x hx
  keys := h.keys
  alloc k hk := halloc (h.alloc k hk)

/-- A packet has no more informations than there are buffers. -/
theorem Has.length_le (h : Has e s p L) : L.length < s.alloc.card := by
  classical
  have hcard := Finset.card_le_card (s := (p :: L.map Prod.fst).toFinset) (t := s.alloc)
    fun k hk => h.alloc k (List.mem_toFinset.1 hk)
  rw [List.toFinset_card_of_nodup h.chain.nodup] at hcard
  simp at hcard
  omega

/-! ### Lookup -/

/-- The search along the list is a lookup in it. -/
theorem getWalk_eq {fuel : Nat} (h : IsChain s.next ptr (L.map Prod.fst))
    (hslots : ∀ x ∈ L, Slot e (s.pbuf x.1) x.2.1 x.2.2) (hfuel : L.length ≤ fuel) (hname : 0 ∉ iname) :
    s.getWalk e iname fuel ptr = .ok none ∧ (L.map Prod.snd).lookup (iname.take INFONAME) = none ∨
      ∃ x ∈ L, x.2.1 = iname.take INFONAME ∧
        s.getWalk e iname fuel ptr = .ok (some (x.1, (e.abi.p_infobuf : Int) + INFONAME + 1)) ∧
        (L.map Prod.snd).lookup (iname.take INFONAME) = some x.2.2 := by
  induction L generalizing ptr fuel with
  | nil =>
    obtain rfl : ptr = none := h
    left
    refine ⟨?_, rfl⟩
    cases fuel <;> rfl
  | cons x L ih =>
    obtain ⟨rfl, hnext⟩ := h
    obtain ⟨fuel, rfl⟩ : ∃ k, fuel = k + 1 := ⟨fuel - 1, by simp at hfuel; omega⟩
    have hx := hslots x List.mem_cons_self
    rw [getWalk]
    simp only [if_pos hx.isInfo, hx.slotWalk_eq hname]
    by_cases hkey : x.2.1 = iname.take INFONAME
    · right
      refine ⟨x, List.mem_cons_self, hkey, by rw [if_pos hkey], ?_⟩
      rw [List.map_cons, List.lookup_cons, hkey]
      simp
    · have hne : ¬ iname.take INFONAME = x.2.1 := fun h => hkey h.symm
      rw [if_neg hkey, List.map_cons, List.lookup_cons, beq_false_of_ne hne]
      rcases ih hnext (fun y hy => hslots y (List.mem_cons_of_mem x hy)) (by simpa using hfuel) with
        h | ⟨y, hy, h⟩
      · exact .inl h
      · exact .inr ⟨y, List.mem_cons_of_mem x hy, h⟩

/-- An information is found by its name. -/
theorem Has.pkt_getinfo (h : Has e s p L) (hname : 0 ∉ iname) :
    s.pkt_getinfo e p iname = .ok none ∧ (L.map Prod.snd).lookup (iname.take INFONAME) = none ∨
      ∃ x ∈ L, x.2.1 = iname.take INFONAME ∧
        s.pkt_getinfo e p iname = .ok (some (x.1, (e.abi.p_infobuf : Int) + INFONAME + 1)) ∧
        (L.map Prod.snd).lookup (iname.take INFONAME) = some x.2.2 := by
  have hlen := h.length_le
  obtain ⟨fuel, hfuel⟩ : ∃ k, s.alloc.card = k + 1 := ⟨s.alloc.card - 1, by omega⟩
  have hstep : s.pkt_getinfo e p iname = s.getWalk e iname fuel (s.next p) := by
    rw [InfoStore.pkt_getinfo, hfuel, getWalk]
    simp [h.data, next]
  rw [hstep]
  exact getWalk_eq h.chain.2 h.slots (by omega) hname

/-- A slot holds its value. -/
theorem valueAt_slot (h : Slot e (s.pbuf k) key info) :
    s.valueAt (k, (e.abi.p_infobuf : Int) + INFONAME + 1) info.length = info := by
  refine read_eq fun i hi => ?_
  have hoff : ((e.abi.p_infobuf : Int) + INFONAME + 1).toNat = e.abi.p_infobuf + INFONAME + 1 := by omega
  simp only [hoff]
  exact h.value i hi

/-- What is found is what the list holds. -/
theorem Has.finds (h : Has e s p L) (hname : 0 ∉ iname) :
    match (L.map Prod.snd).lookup (iname.take INFONAME) with
    | none => s.pkt_getinfo e p iname = .ok none
    | some info => ∃ ptr, s.pkt_getinfo e p iname = .ok (some ptr) ∧
        s.valueAt ptr info.length = info := by
  rcases h.pkt_getinfo hname with ⟨hget, hlook⟩ | ⟨x, hx, -, hget, hlook⟩
  · rw [hlook]
    exact hget
  · rw [hlook]
    exact ⟨_, hget, valueAt_slot (h.slots x hx)⟩

/-! ### Entries -/

theorem Has.addrs_nodup (h : Has e s p L) : (L.map Prod.fst).Nodup :=
  (List.nodup_cons.1 h.chain.nodup).2

theorem Has.not_mem (h : Has e s p L) : p ∉ L.map Prod.fst := (List.nodup_cons.1 h.chain.nodup).1

/-- An entry is determined by its address, and by its name. -/
theorem Has.eq_of_addr (h : Has e s p L) {x y : κ × List Byte × List Byte} (hx : x ∈ L) (hy : y ∈ L)
    (hxy : x.1 = y.1) : x = y :=
  List.inj_on_of_nodup_map h.addrs_nodup hx hy hxy

/-- A name is that of one information. -/
theorem Has.eq_of_key (h : Has e s p L) {x y : κ × List Byte × List Byte} (hx : x ∈ L) (hy : y ∈ L)
    (hxy : x.2.1 = y.2.1) : x = y := by
  have hkeys := h.keys
  rw [List.map_map] at hkeys
  exact List.inj_on_of_nodup_map hkeys hx hy hxy

/-! ### Updates -/

variable [DecidableEq κ]

@[simp] theorem pbuf_set_self : (s.set k c).pbuf k = c := Function.update_self ..

theorem pbuf_set_of_ne (h : a ≠ k) : (s.set k c).pbuf a = s.pbuf a := Function.update_of_ne h ..

omit [DecidableEq κ] in
/-- A value is replaced. -/
theorem lookup_replace {β : Type*} {l : List (List Byte × β)} {v : β} (hkey : key ∈ l.map Prod.fst) :
    (l.map fun y => if y.1 = key then (key, v) else y).lookup name =
      if name = key then some v else l.lookup name := by
  induction l with
  | nil => simp at hkey
  | cons y l ih =>
    obtain ⟨k, w⟩ := y
    rw [List.map_cons]
    by_cases hk : k = key
    · subst hk
      rw [if_pos rfl, List.lookup_cons, List.lookup_cons]
      by_cases hn : name = k
      · simp [hn]
      · rw [beq_false_of_ne hn, if_neg hn]
        by_cases hmem : k ∈ l.map Prod.fst
        · rw [ih hmem, if_neg hn]
        · have hsame : l.map (fun y => if y.1 = k then (k, v) else y) = l.map id :=
            List.map_congr_left fun y hy =>
              if_neg fun hyk => hmem (List.mem_map.2 ⟨y, hy, hyk⟩)
          rw [hsame, List.map_id]
    · have hmem : key ∈ l.map Prod.fst := by
        rcases List.mem_cons.1 hkey with h | h
        · exact absurd h.symm hk
        · exact h
      rw [if_neg hk, List.lookup_cons, List.lookup_cons, ih hmem]
      by_cases hn : name = k
      · subst hn
        simp [hk]
      · rw [beq_false_of_ne hn]

/-- The entries with a new value for a name. -/
def replaced (L : List (κ × List Byte × List Byte)) (key info : List Byte) :
    List (κ × List Byte × List Byte) :=
  L.map fun y => (y.1, if y.2.1 = key then (key, info) else y.2)

omit [DecidableEq κ] in
theorem addrs_replaced : (replaced L key info).map Prod.fst = L.map Prod.fst := by
  rw [replaced, List.map_map]
  rfl

omit [DecidableEq κ] in
/-- An information is overwritten. -/
theorem lookup_replaced {x : κ × List Byte × List Byte} (hx : x ∈ L) :
    ((replaced L x.2.1 info).map Prod.snd).lookup name =
      if name = x.2.1 then some info else (L.map Prod.snd).lookup name := by
  have hmem : x.2.1 ∈ (L.map Prod.snd).map Prod.fst :=
    List.mem_map_of_mem (f := Prod.fst) (List.mem_map_of_mem (f := Prod.snd) hx)
  rw [← lookup_replace hmem, replaced, List.map_map, List.map_map]
  rfl

omit [DecidableEq κ] in
/-- The names stay. -/
theorem keys_replaced : ((replaced L key info).map Prod.snd).map Prod.fst =
    (L.map Prod.snd).map Prod.fst := by
  rw [replaced, List.map_map, List.map_map, List.map_map]
  refine List.map_congr_left fun y _ => ?_
  simp only [Function.comp_apply]
  split_ifs with h
  · exact h.symm
  · rfl

/-- A value written to the slot of its name. -/
theorem Has.update (h : Has e s p L) {x : κ × List Byte × List Byte} (hx : x ∈ L)
    (hfits : info.length ≤ e.abi.INFOBODY) :
    Has e (s.set x.1 ((s.pbuf x.1).write ((e.abi.p_infobuf : Int) + INFONAME + 1) info)) p
      (replaced L x.2.1 info) := by
  have hne : p ≠ x.1 := fun hp => h.not_mem (hp ▸ List.mem_map_of_mem hx)
  refine ⟨?_, ?_, fun y hy => ?_, ?_, ?_⟩
  · rw [addrs_replaced]
    refine h.chain.congr fun k _ => ?_
    by_cases hk : k = x.1
    · rw [hk, next, pbuf_set_self]
      rfl
    · rw [next, pbuf_set_of_ne hk, next]
  · rw [pbuf_set_of_ne hne, h.data]
  · obtain ⟨z, hz, rfl⟩ := List.mem_map.1 hy
    by_cases hkey : z.2.1 = x.2.1
    · obtain rfl := h.eq_of_key hz hx hkey
      rw [if_pos rfl, pbuf_set_self]
      exact (h.slots z hz).write hfits
    · rw [if_neg hkey, pbuf_set_of_ne fun hzx => hkey (by rw [h.eq_of_addr hz hx hzx])]
      exact h.slots z hz
  · rw [keys_replaced]
    exact h.keys
  · rw [addrs_replaced]
    exact h.alloc

/-! ### New pbufs -/

theorem pbuf_link_self {n : Option κ} : (s.link k n).pbuf k = { s.pbuf k with p_next := n } :=
  pbuf_set_self

theorem pbuf_link_of_ne {n : Option κ} (h : a ≠ k) : (s.link k n).pbuf a = s.pbuf a :=
  pbuf_set_of_ne h

/-- A buffer is linked. -/
theorem next_link (n : Option κ) : (s.link k n).next = Function.update s.next k n := by
  funext j
  by_cases hj : j = k
  · subst hj
    rw [next, pbuf_link_self, Function.update_self]
  · rw [next, pbuf_link_of_ne hj, Function.update_of_ne hj, next]

theorem isInfo_link {n : Option κ} : ((s.link k n).pbuf a).isInfo = (s.pbuf a).isInfo := by
  by_cases ha : a = k
  · rw [ha, pbuf_link_self]
  · rw [pbuf_link_of_ne ha]

/-- A link leaves the contents. -/
theorem slot_link {n : Option κ} (h : Slot e (s.pbuf a) key info) :
    Slot e ((s.link k n).pbuf a) key info := by
  by_cases ha : a = k
  · subst ha
    rw [pbuf_link_self]
    exact h.link n
  · rwa [pbuf_link_of_ne ha]

@[simp] theorem pbuf_malloc_self : (s.malloc k c).pbuf k = c := pbuf_set_self

theorem pbuf_malloc_of_ne (h : a ≠ k) : (s.malloc k c).pbuf a = s.pbuf a := pbuf_set_of_ne h

omit [DecidableEq κ] in
/-- Where no pbuf of the list has room, the search ends at the last one. -/
theorem roomWalk_eq {fuel : Nat} {pre : List κ} {f : κ} (h : IsChain s.next (some p) (pre ++ [f]))
    (hfull : ∀ k ∈ pre ++ [f],
      ¬ ((s.pbuf k).isInfo = true ∧ (s.pbuf k).p_dat - e.abi.INFOSIZE ≥ e.abi.p_infobuf))
    (hfuel : pre.length + 1 ≤ fuel) : s.roomWalk e fuel p = .ok (f, false) := by
  obtain ⟨fuel, rfl⟩ : ∃ k, fuel = k + 1 := ⟨fuel - 1, by omega⟩
  induction pre generalizing p fuel with
  | nil =>
    obtain ⟨hp, hnull⟩ := h
    obtain rfl := Option.some.inj hp
    have hnull : (s.pbuf p).p_next = none := hnull
    simp only [roomWalk, if_neg (hfull p (by simp)), hnull]
  | cons x pre ih =>
    obtain ⟨hp, hnext⟩ := h
    obtain rfl := Option.some.inj hp
    have hlist : IsChain s.next (s.next p) (pre ++ [f]) := hnext
    obtain ⟨y, hy⟩ : ∃ y, s.next p = some y := by
      rw [hlist.head_eq]
      cases pre <;> exact ⟨_, rfl⟩
    have hlist : IsChain s.next (some y) (pre ++ [f]) := hy ▸ hlist
    have hy : (s.pbuf p).p_next = some y := hy
    obtain ⟨fuel, rfl⟩ : ∃ k, fuel = k + 1 := ⟨fuel - 1, by simp at hfuel; omega⟩
    rw [roomWalk]
    simp only [if_neg (hfull p (by simp)), hy]
    exact ih hlist (fun k hk => hfull k (List.mem_cons_of_mem p hk)) fuel (by simpa using hfuel)

/-- A new pbuf behind the last one. -/
theorem Has.append (h : Has e s p L) (ha : a ∉ s.alloc) (hname : 0 ∉ iname)
    (hfits : info.length ≤ e.abi.INFOBODY)
    (hnew : (L.map Prod.snd).lookup (iname.take INFONAME) = none) :
    ∃ f, s.roomWalk e s.alloc.card p = .ok (f, false) ∧ f ∈ p :: L.map Prod.fst ∧
      Has e ((s.malloc a ((iget e).copyin e iname info)).link f (some a)) p
        (L ++ [(a, iname.take INFONAME, info)]) := by
  obtain ⟨pre, f, hf⟩ : ∃ pre f, p :: L.map Prod.fst = pre ++ [f] :=
    ⟨_, _, (List.dropLast_append_getLast (by simp)).symm⟩
  have hlen : pre.length = L.length := by
    have hlen := congrArg List.length hf
    simpa using hlen.symm
  have hcard := h.length_le
  have hchain := h.chain
  rw [hf] at hchain
  have halloc : ∀ k ∈ pre ++ [f], k ∈ s.alloc := fun k hk => h.alloc k (hf ▸ hk)
  have ha' : a ∉ pre ++ [f] := fun hmem => ha (halloc a hmem)
  have hkeys : iname.take INFONAME ∉ (L.map Prod.snd).map Prod.fst := by
    intro hmem
    obtain ⟨y, hy, hyk⟩ := List.mem_map.1 hmem
    have hne := List.lookup_eq_none_iff.1 hnew y hy
    simp [hyk] at hne
  refine ⟨f, roomWalk_eq hchain (fun k hk hroom => ?_) (by omega), hf ▸ by simp, ?_, ?_, fun x hx => ?_,
    ?_, fun k hk => ?_⟩
  · have habi := e.abi.one_slot
    rw [← hf] at hk
    rcases List.mem_cons.1 hk with rfl | hk
    · simp [h.data] at hroom
    · obtain ⟨x, hx, rfl⟩ := List.mem_map.1 hk
      have hdat := (h.slots x hx).dat
      omega
  · have hlist : p :: (L ++ [(a, iname.take INFONAME, info)]).map Prod.fst = pre ++ [f, a] := by
      rw [List.map_append, ← List.cons_append, hf]
      simp
    have hmalloc : IsChain (s.malloc a ((iget e).copyin e iname info)).next (some p) (pre ++ [f]) :=
      hchain.congr fun k hk => by rw [next, pbuf_malloc_of_ne (ne_of_mem_of_not_mem hk ha'), next]
    have hnull : (s.malloc a ((iget e).copyin e iname info)).next a = none := by
      rw [next, pbuf_malloc_self]
      rfl
    rw [hlist, next_link]
    exact hmalloc.snoc ha' hnull
  · have hpa : p ≠ a := ne_of_mem_of_not_mem (h.alloc p List.mem_cons_self) ha
    rw [isInfo_link, pbuf_malloc_of_ne hpa, h.data]
  · rcases List.mem_append.1 hx with hx | hx
    · have hxa : x.1 ≠ a := ne_of_mem_of_not_mem
        (h.alloc x.1 (List.mem_cons_of_mem p (List.mem_map_of_mem hx))) ha
      refine slot_link ?_
      rw [pbuf_malloc_of_ne hxa]
      exact h.slots x hx
    · obtain rfl := List.mem_singleton.1 hx
      refine slot_link ?_
      rw [pbuf_malloc_self]
      exact Slot.copyin rfl rfl rfl hname hfits
  · rw [List.map_append, List.map_append]
    refine List.nodup_append.2 ⟨h.keys, by simp, fun x hx y hy hxy => ?_⟩
    obtain rfl : y = iname.take INFONAME := by simpa using hy
    exact hkeys (hxy ▸ hx)
  · rw [List.map_append, ← List.cons_append] at hk
    rcases List.mem_append.1 hk with hk | hk
    · exact Finset.mem_insert_of_mem (h.alloc k hk)
    · obtain rfl : k = a := by simpa using hk
      exact Finset.mem_insert_self ..

/-! ### Copies -/

/-- The pbufs that a loop of `copy` has put behind `pf`, from the addresses `addrs`. -/
structure Copied (e : Env) (s : InfoStore κ) (pf : κ) (addrs : List κ)
    (L : List (κ × List Byte × List Byte)) (s' : InfoStore κ) : Prop where
  given : ∀ x ∈ L, x.1 ∈ addrs
  chain : IsChain s'.next (some pf) (pf :: L.map Prod.fst)
  slots : ∀ x ∈ L, Slot e (s'.pbuf x.1) x.2.1 x.2.2
  alloc : ∀ x ∈ L, x.1 ∈ s'.alloc
  others : ∀ k, k ≠ pf → k ∉ addrs → s'.pbuf k = s.pbuf k
  first : ∃ n, s'.pbuf pf = { s.pbuf pf with p_next := n }
  live : s'.live = s.live
  kept : s.alloc ⊆ s'.alloc

/-- **The copy of the list**, into fresh buffers. -/
theorem copyWalk_copied {fuel : Nat} {pf : κ} {addrs : List κ}
    (hsrc : IsChain s.next ptr (L.map Prod.fst)) (hslots : ∀ x ∈ L, Slot e (s.pbuf x.1) x.2.1 x.2.2)
    (halloc : ∀ x ∈ L, x.1 ∈ s.alloc) (hfuel : L.length ≤ fuel) (haddrs : L.length ≤ addrs.length)
    (hnodup : (pf :: addrs).Nodup) (hfresh : ∀ a ∈ addrs, a ∉ s.alloc) (hpf : pf ∉ L.map Prod.fst)
    (hnext : s.next pf = ptr) :
    ∃ s' L', s.copyWalk e fuel pf ptr addrs = .ok s' ∧ L'.map Prod.snd = L.map Prod.snd ∧
      Copied e s pf addrs L' s' := by
  induction L generalizing s ptr fuel pf addrs with
  | nil =>
    obtain rfl : ptr = none := hsrc
    refine ⟨s, [], by cases fuel <;> rfl, rfl, by simp, ⟨rfl, hnext⟩, by simp, by simp, fun _ _ _ => rfl,
      ⟨(s.pbuf pf).p_next, rfl⟩, rfl, subset_rfl⟩
  | cons x L ih =>
    obtain ⟨rfl, hsrc⟩ := hsrc
    cases addrs with
    | nil => simp at haddrs
    | cons a addrs =>
      obtain ⟨fuel, rfl⟩ : ∃ k, fuel = k + 1 := ⟨fuel - 1, by simp at hfuel; omega⟩
      obtain ⟨hpfa, hnodup'⟩ := List.nodup_cons.1 hnodup
      obtain ⟨haddr, -⟩ := List.nodup_cons.1 hnodup'
      have hapf : a ≠ pf := fun h => hpfa (h ▸ List.mem_cons_self)
      have ha : a ∉ s.alloc := hfresh a List.mem_cons_self
      let c := s.pbuf x.1
      let t := (s.malloc a { c with mem := Memory.copy e.junk 0 c.mem PLEN, p_dat := PLEN - c.p_len }).link
        pf (some a)
      have hother : ∀ k, k ≠ pf → k ≠ a → t.pbuf k = s.pbuf k := by
        intro k hk hka
        rw [pbuf_link_of_ne hk, pbuf_malloc_of_ne hka]
      have hmem : ∀ y ∈ L, t.pbuf y.1 = s.pbuf y.1 := by
        intro y hy
        refine hother y.1 (fun h => hpf ?_) fun h => ha ?_
        · exact h ▸ List.mem_map_of_mem (List.mem_cons_of_mem x hy)
        · exact h ▸ halloc y (List.mem_cons_of_mem x hy)
      have hta : t.pbuf a = { c with mem := Memory.copy e.junk 0 c.mem PLEN, p_dat := PLEN - c.p_len } := by
        rw [pbuf_link_of_ne hapf, pbuf_malloc_self]
      obtain ⟨s', L', hs', hL', hc⟩ := @ih t (s.next x.1) fuel a addrs
        (hsrc.congr fun k hk => by
          obtain ⟨y, hy, rfl⟩ := List.mem_map.1 hk
          rw [next, hmem y hy, next])
        (fun y hy => by rw [hmem y hy]; exact hslots y (List.mem_cons_of_mem x hy))
        (fun y hy => Finset.mem_insert_of_mem (halloc y (List.mem_cons_of_mem x hy)))
        (by simpa using hfuel) (by simpa using haddrs) hnodup'
        (fun b hb => by
          have hba : b ≠ a := fun h => haddr (h ▸ hb)
          have hbs := hfresh b (List.mem_cons_of_mem a hb)
          exact fun h => (Finset.mem_insert.1 h).elim hba hbs)
        (fun h => by
          obtain ⟨y, hy, hya⟩ := List.mem_map.1 h
          exact ha (hya ▸ halloc y (List.mem_cons_of_mem x hy)))
        (by rw [next, hta]; rfl)
      have hpft : s'.pbuf pf = t.pbuf pf :=
        hc.others pf hapf.symm fun h => hpfa (List.mem_cons_of_mem a h)
      have hnext' : s'.next pf = some a := by
        rw [next, hpft, pbuf_link_self]
      obtain ⟨n, hfirst⟩ := hc.first
      refine ⟨s', (a, x.2) :: L', hs', by simp [hL'], fun y hy => ?_, ⟨rfl, ?_⟩, fun y hy => ?_,
        fun y hy => ?_, fun k hk hka => ?_, ⟨some a, ?_⟩, hc.live, fun k hk => ?_⟩
      · rcases List.mem_cons.1 hy with rfl | hy
        · exact List.mem_cons_self
        · exact List.mem_cons_of_mem a (hc.given y hy)
      · rw [hnext']
        exact hc.chain
      · rcases List.mem_cons.1 hy with rfl | hy
        · rw [hfirst, hta]
          exact (hslots x List.mem_cons_self).copied.link n
        · exact hc.slots y hy
      · rcases List.mem_cons.1 hy with rfl | hy
        · exact hc.kept (Finset.mem_insert_self ..)
        · exact hc.alloc y hy
      · obtain ⟨hne, hkas⟩ := List.ne_and_not_mem_of_not_mem_cons hka
        rw [hc.others k hne hkas, hother k hk hne]
      · rw [hpft, pbuf_link_self, pbuf_malloc_of_ne hapf.symm]
      · exact hc.kept (Finset.mem_insert_of_mem hk)

omit [DecidableEq κ] in
/-- The walk over the list finds its buffers. -/
theorem Has.walk (h : Has e s p L) :
    PtrChain.walk (fun k => (s.pbuf k).p_next) s.alloc.card (s.pbuf p).p_next = L.map Prod.fst := by
  classical
  have hlen := h.length_le
  exact h.chain.2.walk (by rw [List.length_map]; omega)

/-- A copy holds what the packet holds, in pbufs of its own. -/
theorem Has.copy {addrs : List κ} (h : Has e s p L) (hnodup : (q :: addrs).Nodup)
    (hfresh : ∀ a ∈ q :: addrs, a ∉ s.alloc) (hcount : L.length ≤ addrs.length) :
    ∃ s' L', s.copy e p q addrs = .ok s' ∧ L'.map Prod.snd = L.map Prod.snd ∧ Has e s' q L' ∧
      (∀ k ∈ q :: L'.map Prod.fst, k ∉ s.alloc) ∧ (∀ k ∈ s.alloc, s'.pbuf k = s.pbuf k) ∧
      s.alloc ⊆ s'.alloc ∧ s'.live = insert q s.live := by
  have hq : q ∉ s.alloc := hfresh q List.mem_cons_self
  have hne : ∀ k ∈ s.alloc, k ≠ q := fun k hk => ne_of_mem_of_not_mem hk hq
  have hmem : ∀ x ∈ L, x.1 ∈ s.alloc := fun x hx =>
    h.alloc x.1 (List.mem_cons_of_mem p (List.mem_map_of_mem hx))
  let t : InfoStore κ := { s.malloc q (s.pbuf p) with live := insert q s.live }
  have hsame : ∀ k ∈ s.alloc, t.pbuf k = s.pbuf k := fun k hk => pbuf_malloc_of_ne (hne k hk)
  have htq : t.pbuf q = s.pbuf p := pbuf_malloc_self
  have hlen := h.length_le
  obtain ⟨s', L', hs', hL', hc⟩ := @copyWalk_copied _ e t (s.next p) L _ s.alloc.card q addrs
    (h.chain.2.congr fun k hk => by
      rw [next, hsame k (h.alloc k (List.mem_cons_of_mem p hk)), next])
    (fun x hx => by rw [hsame x.1 (hmem x hx)]; exact h.slots x hx)
    (fun x hx => Finset.mem_insert_of_mem (hmem x hx)) (by omega) hcount hnodup
    (fun a ha hat => by
      rcases Finset.mem_insert.1 hat with rfl | hat
      · exact (List.nodup_cons.1 hnodup).1 ha
      · exact hfresh a (List.mem_cons_of_mem q ha) hat)
    (fun hql => by
      obtain ⟨x, hx, hxq⟩ := List.mem_map.1 hql
      exact hq (hxq ▸ hmem x hx))
    (by rw [next, htq]; rfl)
  obtain ⟨n, hfirst⟩ := hc.first
  have hnew : ∀ k ∈ L'.map Prod.fst, k ∈ addrs := by
    intro k hk
    obtain ⟨x, hx, rfl⟩ := List.mem_map.1 hk
    exact hc.given x hx
  refine ⟨s', L', hs', hL', ⟨hc.chain, ?_, hc.slots, ?_, fun k hk => ?_⟩, fun k hk => ?_,
    fun k hk => ?_, fun k hk => hc.kept (Finset.mem_insert_of_mem hk), hc.live⟩
  · rw [hfirst, htq]
    exact h.data
  · rw [hL']
    exact h.keys
  · rcases List.mem_cons.1 hk with rfl | hk
    · exact hc.kept (Finset.mem_insert_self ..)
    · obtain ⟨x, hx, rfl⟩ := List.mem_map.1 hk
      exact hc.alloc x hx
  · rcases List.mem_cons.1 hk with rfl | hk
    · exact hq
    · exact hfresh k (List.mem_cons_of_mem q (hnew k hk))
  · have hka : k ∉ addrs := fun hka => hfresh k (List.mem_cons_of_mem q hka) hk
    rw [hc.others k (hne k hk) hka, hsame k hk]

/-! ## All packets -/

/-- The lists `ent` of all packets: they stand for the attributes, and no pbuf is in two of them. -/
structure Tables (e : Env) (s : InfoStore κ × Attrs κ) (ent : κ → List (κ × List Byte × List Byte)) :
    Prop where
  has : ∀ p ∈ s.1.live, Has e s.1 p (ent p)
  means : ∀ p ∈ s.1.live, ∀ key, s.2 p key = ((ent p).map Prod.snd).lookup key
  apart : ∀ p ∈ s.1.live, ∀ q ∈ s.1.live, p ≠ q →
    ∀ k ∈ p :: (ent p).map Prod.fst, k ∉ q :: (ent q).map Prod.fst

omit [DecidableEq κ] in
/-- The tables give the informations. -/
theorem Tables.findsInfo {s : InfoStore κ × Attrs κ} {ent : κ → List (κ × List Byte × List Byte)}
    (h : Tables e s ent) : FindsInfo e s := fun p hp iname hname => by
  rw [h.means p hp]
  exact (h.has p hp).finds hname

section

variable {m : Attrs κ} {ent : κ → List (κ × List Byte × List Byte)}
  {f : List Byte → Option (List Byte)}

/-- A new list for one packet, whose pbufs no other packet uses. -/
theorem Tables.put (h : Tables e (s, m) ent) (hhas : Has e s' p L)
    (hmeans : ∀ key, f key = (L.map Prod.snd).lookup key) (hlive : ∀ q ∈ s'.live, q = p ∨ q ∈ s.live)
    (halloc : s.alloc ⊆ s'.alloc)
    (hframe : ∀ q ∈ s.live, q ≠ p → ∀ k ∈ q :: (ent q).map Prod.fst,
      s'.pbuf k = s.pbuf k ∧ k ∉ p :: L.map Prod.fst) :
    Tables e (s', Function.update m p f) (Function.update ent p L) := by
  have hold : ∀ q ∈ s'.live, q ≠ p → q ∈ s.live := fun q hq hqp => (hlive q hq).resolve_left hqp
  refine ⟨fun q hq => ?_, fun q hq key => ?_, fun q hq r hr hqr k hk => ?_⟩
  · by_cases hqp : q = p
    · rw [hqp, Function.update_self]
      exact hhas
    · rw [Function.update_of_ne hqp]
      have hq := hold q hq hqp
      exact (h.has q hq).frame (fun k hk => (hframe q hq hqp k hk).1) halloc
  · by_cases hqp : q = p
    · simp only [hqp, Function.update_self]
      exact hmeans key
    · simp only [Function.update_of_ne hqp]
      exact h.means q (hold q hq hqp) key
  · by_cases hqp : q = p
    · subst hqp
      rw [Function.update_self] at hk
      rw [Function.update_of_ne hqr.symm]
      exact fun hkr => (hframe r (hold r hr hqr.symm) hqr.symm k hkr).2 hk
    · rw [Function.update_of_ne hqp] at hk
      by_cases hrp : r = p
      · subst hrp
        rw [Function.update_self]
        exact (hframe q (hold q hq hqp) hqp k hk).2
      · rw [Function.update_of_ne hrp]
        exact h.apart q (hold q hq hqp) r (hold r hr hrp) hqr k hk

/-- **New packet.**. -/
theorem Tables.new (h : Tables e (s, m) ent) (hp : p ∉ s.alloc) :
    ∃ ent', Tables e (s.new e p, Function.update m p fun _ => none) ent' := by
  have hpbuf : (s.new e p).pbuf p =
      { p_next := none, isInfo := false, p_len := 0, p_dat := PLEN, mem := e.junk } := pbuf_malloc_self
  refine ⟨_, h.put (L := []) ⟨⟨rfl, ?_⟩, ?_, by simp, by simp, fun k hk => ?_⟩ (fun _ => rfl)
    (fun q hq => Finset.mem_insert.1 hq) (Finset.subset_insert ..) fun q hq _ k hk => ?_⟩
  · show (s.new e p).next p = none
    rw [next, hpbuf]
  · rw [hpbuf]
  · obtain rfl := List.mem_singleton.1 hk
    exact Finset.mem_insert_self ..
  · have hkp : k ≠ p := ne_of_mem_of_not_mem ((h.has q hq).alloc k hk) hp
    exact ⟨pbuf_malloc_of_ne hkp, by simpa using hkp⟩

/-- Adding a value: an update of the list of the packet, or a new entry. -/
theorem Tables.pkt_addinfo (h : Tables e (s, m) ent) (hp : p ∈ s.live) (ha : a ∉ s.alloc)
    (hname : 0 ∉ iname) (hfits : info.length ≤ e.abi.INFOBODY) :
    ∃ s' ent', s.pkt_addinfo e p iname info a = .ok (1, s') ∧
      Tables e (s', Function.update m p (Function.update (m p) (iname.take INFONAME) (some info)))
        ent' := by
  have hh : Has e s p (ent p) := h.has p hp
  have hm : ∀ key, m p key = ((ent p).map Prod.snd).lookup key := h.means p hp
  have hlen : ¬ info.length > e.abi.INFOBODY := by omega
  rcases hh.pkt_getinfo hname with ⟨hget, hlook⟩ | ⟨x, hx, hkey, hget, -⟩
  · obtain ⟨f, hroom, hf, hhas⟩ := hh.append ha hname hfits hlook
    refine ⟨_, _, by rw [InfoStore.pkt_addinfo, if_neg hlen, hget, hroom], h.put hhas (fun key => ?_)
      (fun q hq => .inr hq) (Finset.subset_insert ..) fun q hq hqp k hk => ?_⟩
    · rw [List.map_append, List.lookup_append, Function.update_apply, hm]
      by_cases hkey : key = iname.take INFONAME
      · rw [if_pos hkey, hkey, hlook]
        simp
      · rw [if_neg hkey]
        simp [beq_false_of_ne hkey]
    · have hkp : k ∉ p :: (ent p).map Prod.fst := h.apart q hq p hp hqp k hk
      have hka : k ≠ a := ne_of_mem_of_not_mem ((h.has q hq).alloc k hk) ha
      have hkf : k ≠ f := fun hkf => hkp (hkf ▸ hf)
      refine ⟨?_, ?_⟩
      · rw [pbuf_link_of_ne hkf, pbuf_malloc_of_ne hka]
      · rw [List.map_append, ← List.cons_append]
        exact fun hmem => (List.mem_append.1 hmem).elim hkp fun hmem => hka (by simpa using hmem)
  · refine ⟨_, _, by rw [InfoStore.pkt_addinfo, if_neg hlen, hget], h.put (hh.update hx hfits)
      (fun key => ?_) (fun q hq => .inr hq) subset_rfl fun q hq hqp k hk => ?_⟩
    · rw [← hkey, lookup_replaced hx, Function.update_apply, hm]
    · have hkp : k ∉ p :: (ent p).map Prod.fst := h.apart q hq p hp hqp k hk
      refine ⟨pbuf_set_of_ne fun hkx => hkp ?_, ?_⟩
      · exact hkx ▸ List.mem_cons_of_mem p (List.mem_map_of_mem hx)
      · rwa [addrs_replaced]

/-- **Copy.**. -/
theorem Tables.copy {addrs : List κ} (h : Tables e (s, m) ent) (hp : p ∈ s.live)
    (hnodup : (q :: addrs).Nodup) (hfresh : ∀ a ∈ q :: addrs, a ∉ s.alloc)
    (hcount : s.infoCount p ≤ addrs.length) :
    ∃ s' ent', s.copy e p q addrs = .ok s' ∧ Tables e (s', Function.update m q (m p)) ent' := by
  have hh := h.has p hp
  have hcount : (ent p).length ≤ addrs.length := by
    rwa [infoCount, hh.walk, List.length_map] at hcount
  obtain ⟨s', L', hs', hL', hhas, hnew, hpbuf, halloc, hlive⟩ := hh.copy hnodup hfresh hcount
  refine ⟨s', _, hs', h.put hhas (fun key => ?_) (fun r hr => ?_) halloc fun r hr _ k hk => ?_⟩
  · rw [hL']
    exact h.means p hp key
  · rw [hlive] at hr
    exact Finset.mem_insert.1 hr
  · have hk := (h.has r hr).alloc k hk
    exact ⟨hpbuf k hk, fun hkq => hnew k hkq hk⟩

end

end InfoStore

open InfoStore Run

/-- There is no packet. -/
theorem tables_empty (pbuf : κ → Cell κ) (m : Attrs κ) :
    Tables e (InfoStore.empty pbuf, m) fun _ => [] := by
  refine ⟨fun p hp => ?_, fun p hp => ?_, fun p hp => ?_⟩ <;> cases hp

variable [DecidableEq κ]

/-- Each call succeeds and keeps the lists. -/
theorem InfoStore.Tables.run {s : InfoStore κ × Attrs κ} {ent : κ → List (κ × List Byte × List Byte)}
    {c : InfoCall κ} (h : Tables e s ent) (hc : InfoAllowed e s c) :
    ∃ s', InfoCall.run e s c = .ok s' ∧ ∃ ent', Tables e s' ent' := by
  obtain ⟨s, m⟩ := s
  cases c with
  | new p => exact ⟨_, rfl, h.new hc⟩
  | pkt_addinfo p iname info a =>
    obtain ⟨hp, ha, hname, hfits⟩ := hc
    obtain ⟨s', ent', hs', h'⟩ := h.pkt_addinfo hp ha hname hfits
    exact ⟨_, by rw [InfoCall.run, InfoStore.call, hs']; rfl, ent', h'⟩
  | copy p q addrs =>
    obtain ⟨hp, hnodup, hfresh, hcount⟩ := hc
    obtain ⟨s', ent', hs', h'⟩ := h.copy hp hnodup hfresh hcount
    exact ⟨_, by rw [InfoCall.run, InfoStore.call, hs']; rfl, ent', h'⟩

/-- **Attributes are a finite map.** No call fails, and after every call `pkt_getinfo` finds under each
    name the value added last to the packet, or to the packet it was copied from before that copy. -/
theorem run_findsInfo (pbuf : κ → Cell κ) {calls : List (InfoCall κ)}
    (hcalls : Along (InfoCall.run e) (InfoAllowed e) (InfoStore.empty pbuf, fun _ _ => none) calls) :
    (∃ t, exec (InfoCall.run e) (InfoStore.empty pbuf, fun _ _ => none) calls = .ok t) ∧
      Always (InfoCall.run e) (FindsInfo e) (InfoStore.empty pbuf, fun _ _ => none) calls := by
  have hempty : ∃ ent, Tables e (InfoStore.empty pbuf, fun _ _ => none) ent :=
    ⟨_, tables_empty pbuf _⟩
  have hstep : ∀ (s : InfoStore κ × Attrs κ) c, (∃ ent, Tables e s ent) → InfoAllowed e s c →
      ∃ s', InfoCall.run e s c = .ok s' ∧ ∃ ent, Tables e s' ent := by
    rintro s c ⟨ent, h⟩ hc
    exact h.run hc
  refine ⟨exec_ok_of_along hstep hempty hcalls, ?_⟩
  have hinv : Always (InfoCall.run e) (fun s => ∃ ent, Tables e s ent)
      (InfoStore.empty pbuf, fun _ _ => none) calls := by
    refine Always.of_along (fun s c s' h hc hs' => ?_) hempty hcalls
    obtain ⟨t, ht, hent⟩ := hstep s c h hc
    rwa [← Except.ok.inj (ht.symm.trans hs')]
  refine hinv.mono ?_
  rintro s ⟨ent, h⟩
  exact h.findsInfo

/-- Two names, a copy, and a new value under the first name in the copy. -/
theorem run_findsInfo_copied :
    (∃ t, exec (InfoCall.run ⟨.i386, 1024, fun _ => 0⟩)
        (InfoStore.empty (fun _ : Fin 7 => iget ⟨.i386, 1024, fun _ => 0⟩), fun _ _ => none)
        [.new 0, .pkt_addinfo 0 [80, 79, 82, 84] [1, 2] 1, .pkt_addinfo 0 [78, 72] [3] 2,
          .copy 0 3 [4, 5], .pkt_addinfo 3 [80, 79, 82, 84] [7] 6] = .ok t) ∧
      Always (InfoCall.run ⟨.i386, 1024, fun _ => 0⟩) (FindsInfo ⟨.i386, 1024, fun _ => 0⟩)
        (InfoStore.empty (fun _ : Fin 7 => iget ⟨.i386, 1024, fun _ => 0⟩), fun _ _ => none)
        [.new 0, .pkt_addinfo 0 [80, 79, 82, 84] [1, 2] 1, .pkt_addinfo 0 [78, 72] [3] 2,
          .copy 0 3 [4, 5], .pkt_addinfo 3 [80, 79, 82, 84] [7] 6] :=
  run_findsInfo _ (by decide +kernel)

end Packet
