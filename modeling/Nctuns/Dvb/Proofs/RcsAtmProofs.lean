import Nctuns.Dvb.RcsAtm

/-!
# Proofs about AAL5 over ATM cells

A payload becomes a frame of cells that the receiver turns into the payload again; the buffers keep
the frames of different queues apart as long as no two queues have the same buffer.
-/

namespace Dvb

open Memory Delimited

variable {m : RcsAtm} {data : Nat → Byte} {junk : Nat → AtmCell} {cells : List AtmCell}

/-! ### Cells -/

theorem or_and_right (a b c : Byte) : (a ||| b) &&& c = (a &&& c) ||| (b &&& c) :=
  UInt8.toBitVec_inj.1 BitVec.and_or_distrib_right

/-- The other fields of `header3` do not reach the bit of the last cell. -/
theorem header3_pt (pt h v : Byte) :
    ((((h &&& 0xF0) ||| (pt &&& 0x0A)) &&& 0x0F) ||| (v &&& 0xF0)) &&& 0x0A &&& ATM_PT_LAST_CELL =
      pt &&& ATM_PT_LAST_CELL := by
  have hA : h &&& 0xF0 &&& 0x0F &&& 0x0A &&& ATM_PT_LAST_CELL = 0 := by
    simp only [UInt8.and_assoc]; exact UInt8.and_zero
  have hV : v &&& 0xF0 &&& 0x0A &&& ATM_PT_LAST_CELL = 0 := by
    simp only [UInt8.and_assoc]; exact UInt8.and_zero
  have hP : pt &&& 0x0A &&& 0x0F &&& 0x0A &&& ATM_PT_LAST_CELL = pt &&& ATM_PT_LAST_CELL := by
    simp only [UInt8.and_assoc]; rfl
  simp only [or_and_right, hA, hV, hP, UInt8.zero_or, UInt8.or_zero]

theorem makeCell_isLast (m : RcsAtm) (data : Nat → Byte) (i : Nat) (pt : Byte) (c : AtmCell) :
    (m.makeCell data i pt c).isLast = decide (pt &&& ATM_PT_LAST_CELL ≠ 0) := by
  show decide (((((c.header3 &&& 0xF0) ||| (pt &&& 0x0A)) &&& 0x0F) ||| (_ &&& 0xF0)) &&& 0x0A &&&
    ATM_PT_LAST_CELL ≠ 0) = _
  rw [header3_pt]

theorem makeCell_payload (m : RcsAtm) (data : Nat → Byte) (i : Nat) (pt : Byte) (c : AtmCell) :
    (m.makeCell data i pt c).payload = read (fun k => data (i * 48 + k)) 48 := rfl

theorem makeCell_hec (m : RcsAtm) (data : Nat → Byte) (i : Nat) (pt : Byte) (c : AtmCell) :
    (m.makeCell data i pt c).hec ||| (m.makeCell data i pt c).headerCrc = 0xFF := by
  show ~~~ AtmCell.headerCrc _ ||| AtmCell.headerCrc _ = _
  exact UInt8.not_or_self

/-- What the cells of one PDU are. -/
structure Segmented (data : Nat → Byte) (i n : Nat) (cells : List AtmCell) : Prop where
  frame : IsFrame AtmCell.isLast cells
  hec : ∀ c ∈ cells, c.hec ||| c.headerCrc = 0xFF
  length : cells.length = n
  payload : cells.flatMap AtmCell.payload = read (fun k => data (i * 48 + k)) (48 * n)

theorem segments_spec {fuel : Nat} (i n : Nat) (hf : n < fuel) :
    ∃ cells, m.segments data junk fuel i (48 * (n + 1)) = some cells ∧
      Segmented data i (n + 1) cells := by
  induction n generalizing i fuel with
  | zero =>
    obtain ⟨fuel, rfl⟩ := Nat.exists_eq_succ_of_ne_zero (Nat.ne_of_gt hf)
    refine ⟨[m.makeCell data i ATM_PT_LAST_CELL (junk i)], ?_, ⟨[], _, rfl, ?_, ?_⟩, ?_, rfl, ?_⟩
    · show (if 48 > 48 then _ else if 48 = 48 then _ else _) = _
      rw [if_neg (by decide), if_pos rfl]
    · exact fun x hx => absurd hx List.not_mem_nil
    · rw [makeCell_isLast]; rfl
    · intro c hc
      rw [List.mem_singleton.1 hc]
      exact makeCell_hec ..
    · rw [List.flatMap_singleton, makeCell_payload]
  | succ n ih =>
    obtain ⟨fuel, rfl⟩ := Nat.exists_eq_succ_of_ne_zero (Nat.ne_of_gt (Nat.zero_lt_of_lt hf))
    obtain ⟨rest, hrest, ⟨body, last, rfl, hbody, hlast⟩, hhec, hlen, hpay⟩ :=
      ih (i + 1) (Nat.lt_of_succ_lt_succ hf)
    refine ⟨m.makeCell data i ATM_PT_NONE (junk i) :: (body ++ [last]), ?_,
      ⟨_ :: body, last, rfl, ?_, hlast⟩, ?_, ?_, ?_⟩
    · have hsub : 48 * (n + 1 + 1) - ATM_PAYLOAD_LEN = 48 * (n + 1) := by
        show 48 * (n + 1 + 1) - 48 = _
        omega
      show (if 48 * (n + 1 + 1) > 48 then _ else _) = _
      rw [if_pos (by omega), hsub, hrest]
    · intro x hx
      rcases List.mem_cons.1 hx with rfl | hx
      · rw [makeCell_isLast]; rfl
      · exact hbody x hx
    · intro c hc
      rcases List.mem_cons.1 hc with rfl | hc
      · exact makeCell_hec ..
      · exact hhec c hc
    · rw [List.length_cons, hlen]
    · rw [List.flatMap_cons, hpay, makeCell_payload, show 48 * (n + 1 + 1) = 48 + 48 * (n + 1) by omega,
        read_add]
      congr 2
      funext k
      congr 1; omega

/-! ### One payload -/

/-- The bytes of a PDU. -/
def pduAll (payload : List Byte) (pad : Nat) : List Byte :=
  RcsAtm.pduBytes payload pad ++ LittleEndian.bytes 4
    (~~~ CRC32 (RcsAtm.pduBytes payload pad) IEEE_8023_CRC32_POLY 1).toNat

theorem length_pduBytes (payload : List Byte) (pad : Nat) :
    (RcsAtm.pduBytes payload pad).length = payload.length + pad + 4 := by
  simp [RcsAtm.pduBytes]; omega

theorem length_pduAll (payload : List Byte) (pad : Nat) :
    (pduAll payload pad).length = payload.length + pad + 8 := by
  rw [pduAll, List.length_append, length_pduBytes, LittleEndian.length_bytes]

/-- The two fields of the trailer that the receiver reads. -/
theorem trailer_fields {payload : List Byte} (hfits : payload.length ≤ 65535) (pad : Nat)
    (z : Nat → Byte) (b : Byte) :
    Aal5Pdu.payload_len ⟨ofList (pduAll payload pad) z, b, payload.length + pad⟩ = payload.length ∧
      Aal5Pdu.crc32 ⟨ofList (pduAll payload pad) z, b, payload.length + pad⟩ =
        ~~~ CRC32 (RcsAtm.pduBytes payload pad) IEEE_8023_CRC32_POLY 1 := by
  have hlen := length_pduAll payload pad
  have hhead : (payload ++ List.replicate pad 0 ++ [0, 0]).length = payload.length + pad + 2 := by
    simp; omega
  constructor
  · show LittleEndian.value (read (fun k => ofList (pduAll payload pad) z
      (payload.length + pad + 2 + k)) 2) = _
    rw [read_ofList (by omega), pduAll, RcsAtm.pduBytes, List.append_assoc, List.drop_left' hhead,
      List.take_left' (LittleEndian.length_bytes 2 _), LittleEndian.value_bytes (by omega)]
  · show UInt32.ofNat (LittleEndian.value (read (fun k => ofList (pduAll payload pad) z
      (payload.length + pad + 4 + k)) 4)) = _
    rw [read_ofList (by omega), pduAll, List.drop_left' (length_pduBytes payload pad),
      List.take_of_length_le (by simp), LittleEndian.value_bytes (UInt32.toNat_lt _), UInt32.ofNat_toNat]

/-- The padding fills the last cell. -/
theorem padding_spec (n : Nat) :
    ∃ pad k, (if (n + 8) % 48 > 0 then 48 - (n + 8) % 48 else (n + 8) % 48) = pad ∧ pad < 48 ∧
      n + pad + 8 = 48 * (k + 1) := by
  refine ⟨_, (n + 8 + (if (n + 8) % 48 > 0 then 48 - (n + 8) % 48 else (n + 8) % 48)) / 48 - 1,
    rfl, ?_, ?_⟩
  · split_ifs <;> omega
  · split_ifs <;> omega

/-- The cells of a payload. -/
theorem RcsAtm.send_segmented (m : RcsAtm) (pkt : AtmPacket) :
    ∃ cells pad k, pad < 48 ∧ pkt.payload.length + pad + 8 = 48 * (k + 1) ∧
      m.send pkt = some cells ∧
      Segmented (ofList (pduAll pkt.payload pad) fun _ => 0) 0 (k + 1) cells := by
  obtain ⟨pad, k, hpad, hlt, hk⟩ := padding_spec pkt.payload.length
  have hbyte : (UInt8.ofNat pad).toNat = pad := UInt8.toNat_ofNat_of_lt (show pad < 256 by omega)
  have hencap : RcsAtm._encapsulation_aal5 pkt.payload = some
      ⟨ofList (pduAll pkt.payload pad) fun _ => 0, .ofNat pad, pkt.payload.length + pad⟩ := by
    refine (if_neg (Nat.ne_of_gt pkt.pos)).trans ?_
    show some _ = _
    rw [hpad]
    rfl
  obtain ⟨cells, hcells, hseg⟩ : ∃ cells, m.segments (ofList (pduAll pkt.payload pad) fun _ => 0)
      pkt.cells (48 * (k + 1)) 0 (48 * (k + 1)) = some cells ∧
      Segmented (ofList (pduAll pkt.payload pad) fun _ => 0) 0 (k + 1) cells :=
    segments_spec 0 k (by omega)
  refine ⟨cells, pad, k, hlt, hk, ?_, hseg⟩
  unfold RcsAtm.send RcsAtm._segmentation_atm
  rw [hencap]
  dsimp only
  rw [(trailer_fields pkt.fits pad _ _).1, hbyte, show AAL5_TRAILER_LEN = 8 from rfl, hk,
    if_pos ⟨pkt.pos, Nat.mul_mod_right 48 _⟩, hcells]

theorem Segmented.flatMap {payload : List Byte} {pad k : Nat}
    (h : Segmented (ofList (pduAll payload pad) fun _ => 0) 0 (k + 1) cells)
    (hk : payload.length + pad + 8 = 48 * (k + 1)) :
    cells.flatMap AtmCell.payload = pduAll payload pad := by
  rw [h.payload, ← hk, ← length_pduAll]
  exact read_eq fun j hj => by rw [ofList_of_lt (by omega)]; congr 1; omega

/-- **A payload alone.** -/
theorem RcsAtm.send_spec (m : RcsAtm) (pkt : AtmPacket) :
    ∃ cells, m.send pkt = some cells ∧ IsFrame AtmCell.isLast cells ∧
      ∀ behind, reassemble cells behind = .ok (some pkt.payload) := by
  obtain ⟨cells, pad, k, hlt, hk, hsend, hseg⟩ := RcsAtm.send_segmented m pkt
  refine ⟨cells, hsend, hseg.frame, fun behind => ?_⟩
  have hbyte : (UInt8.ofNat pad).toNat = pad := UInt8.toNat_ofNat_of_lt (show pad < 256 by omega)
  have hall := length_pduAll pkt.payload pad
  have hfields := trailer_fields pkt.fits pad behind
  have htrailer : cells.length * ATM_PAYLOAD_LEN - AAL5_TRAILER_LEN = pkt.payload.length + pad := by
    rw [hseg.length]
    show (k + 1) * 48 - 8 = _
    omega
  have hreassembly : RcsAtm._re_assembly_atm cells behind = some
      ⟨ofList (pduAll pkt.payload pad) behind, .ofNat pad, pkt.payload.length + pad⟩ := by
    unfold RcsAtm._re_assembly_atm
    rw [if_pos (List.all_eq_true.2 fun c hc => decide_eq_true (hseg.hec c hc)), hseg.flatMap hk,
      htrailer]
    dsimp only
    rw [(hfields 0).1,
      show ((pkt.payload.length + pad : Nat) : Int) - (pkt.payload.length : Nat) = (pad : Nat) by
        omega]
    rw [show UInt8.ofInt (pad : Int) = UInt8.ofNat pad from congrArg UInt8.ofNat (by omega)]
  have hbytes : read (ofList (pduAll pkt.payload pad) behind) (pkt.payload.length + pad + 4) =
      RcsAtm.pduBytes pkt.payload pad := by
    rw [read_ofList_take (by omega), pduAll, List.take_left' (length_pduBytes _ _)]
  have hpayload : read (ofList (pduAll pkt.payload pad) behind) pkt.payload.length =
      pkt.payload := by
    rw [read_ofList_take (by omega), pduAll, RcsAtm.pduBytes, List.append_assoc, List.append_assoc,
      List.append_assoc, List.take_left' rfl]
  unfold reassemble
  rw [hreassembly]
  dsimp only
  unfold RcsAtm._de_encapsulation_aal5
  rw [(hfields _).1, (hfields _).2, if_neg (Nat.ne_of_gt pkt.pos), hbyte]
  dsimp only
  rw [hbytes, UInt32.not_or_self, if_neg (by decide), hpayload]

/-- The payload that a frame carries. -/
def payloadOf (l : List AtmCell) : List Byte :=
  match reassemble l fun _ => 0 with
  | .ok (some payload) => payload
  | _ => []

theorem RcsAtm.sendAll_spec (m : RcsAtm) (pkts : List AtmPacket) :
    ∃ frames : List (List AtmCell), m.sendAll pkts = some frames.flatten ∧
      (∀ l ∈ frames, IsFrame AtmCell.isLast l) ∧
      (∀ l ∈ frames, ∀ behind, reassemble l behind = .ok (some (payloadOf l))) ∧
      frames.map payloadOf = pkts.map AtmPacket.payload := by
  induction pkts with
  | nil => exact ⟨[], rfl, by simp, by simp, rfl⟩
  | cons pkt pkts ih =>
    obtain ⟨frames, hsend, hframes, hre, hpay⟩ := ih
    obtain ⟨l, hl, hframe, hrel⟩ := RcsAtm.send_spec m pkt
    have hpayl : payloadOf l = pkt.payload := by rw [payloadOf, hrel]
    refine ⟨l :: frames, ?_, List.forall_mem_cons.2 ⟨hframe, hframes⟩,
      List.forall_mem_cons.2 ⟨fun behind => by rw [hpayl, hrel], hre⟩, ?_⟩
    · unfold RcsAtm.sendAll
      rw [hl, hsend]
      rfl
    · rw [List.map_cons, List.map_cons, hpay, hpayl]

/-! ### Interleaved flows -/

/-- The buffers of the receiver hold what `collect` has gathered of each flow. -/
def Gathered (flows : Set AtmFlow) (s : AtmBuffers) (buf : AtmFlow → List AtmCell) : Prop :=
  ∀ f ∈ flows, s f.buffer = buf f

variable {flows : Set AtmFlow} {s : AtmBuffers} {buf : AtmFlow → List AtmCell}

theorem Gathered.update (h : Gathered flows s buf) (hinj : flows.InjOn AtmFlow.buffer) {f : AtmFlow}
    (hf : f ∈ flows) (l : List AtmCell) :
    Gathered flows (Function.update s f.buffer l) (Function.update buf f l) := fun g hg => by
  rcases eq_or_ne g f with rfl | hne
  · rw [Function.update_self, Function.update_self]
  · rw [Function.update_of_ne hne, Function.update_of_ne fun heq => hne (hinj hg hf heq)]
    exact h g hg

/-- The receiver delivers the frames that `collect` gathers. -/
theorem recvAll_collect {as : List AtmArrival} (hinj : flows.InjOn AtmFlow.buffer)
    (h : Gathered flows s buf) (has : ∀ a ∈ as, a.flow ∈ flows)
    (hre : ∀ x ∈ collect AtmCell.isLast buf (as.map fun a => (a.flow, a.cell)),
      ∀ behind, reassemble x.2 behind = .ok (some (payloadOf x.2))) :
    recvAll s as = .ok ((collect AtmCell.isLast buf (as.map fun a => (a.flow, a.cell))).map
      fun x => (x.1, payloadOf x.2)) := by
  induction as generalizing s buf with
  | nil => rfl
  | cons a as ih =>
    have hflow := has a (List.mem_cons_self ..)
    have has' := fun b hb => has b (List.mem_cons_of_mem a hb)
    have hbuf := h a.flow hflow
    rw [List.map_cons] at hre ⊢
    unfold collect at hre ⊢
    unfold recvAll recv
    dsimp only
    rw [hbuf]
    split_ifs at hre ⊢ with hlast
    · obtain ⟨hx, hre⟩ := List.forall_mem_cons.1 hre
      rw [hx a.behind]
      dsimp only
      rw [ih (h.update hinj hflow []) has' hre]
      rfl
    · dsimp only
      rw [ih (h.update hinj hflow _) has' hre]
      rfl

/-- **The condition is enough.** -/
theorem roundTrip_of_injOn (hinj : flows.InjOn AtmFlow.buffer) : RoundTrip flows := by
  intro m sent
  choose frames hsend hframes hre hpay using fun f => RcsAtm.sendAll_spec (m f) (sent f)
  refine ⟨fun f => (frames f).flatten, hsend, fun as has hcells => ?_⟩
  have hcollect : ∀ f ∈ flows, ((collect AtmCell.isLast (fun _ => [])
      (as.map fun a => (a.flow, a.cell))).filter (·.1 = f)).map Prod.snd = frames f := by
    intro f hf
    refine collect_flow f (hframes f) (fun x hx => absurd hx List.not_mem_nil) ?_
    refine Eq.trans ?_ (hcells f hf)
    rw [List.nil_append, List.filter_map, List.map_map]
    rfl
  have hgood : ∀ x ∈ collect AtmCell.isLast (fun _ => []) (as.map fun a => (a.flow, a.cell)),
      ∀ behind, reassemble x.2 behind = .ok (some (payloadOf x.2)) := by
    intro x hx
    obtain ⟨a, ha, hax⟩ := mem_collect hx
    obtain ⟨b, hb, rfl⟩ := List.mem_map.1 ha
    have hxf : x.1 ∈ flows := hax ▸ has b hb
    refine hre x.1 x.2 ?_
    rw [← hcollect x.1 hxf]
    exact List.mem_map.2 ⟨x, List.mem_filter.2 ⟨hx, by simp⟩, rfl⟩
  refine ⟨_, recvAll_collect hinj (fun _ _ => rfl) has hgood, fun f hf => ?_⟩
  rw [← hpay f, ← hcollect f hf, List.filter_map, List.map_map, List.map_map]
  rfl

/-! ### Two queues with one buffer -/

/-- A cell of zero bytes. -/
def blankCell : AtmCell := ⟨0, 0, 0, 0, 0, List.replicate 48 0, rfl⟩

/-- A payload of one cell. -/
def shortPacket : AtmPacket := ⟨[0], by decide, by decide, fun _ => blankCell⟩

/-- A payload of two cells, the first of which it fills. -/
def longPacket : AtmPacket := ⟨List.replicate 48 1, by decide, by decide, fun _ => blankCell⟩

theorem shortPacket_cells (m : RcsAtm) :
    ∃ a, m.send shortPacket = some [a] ∧ a.isLast = true := by
  obtain ⟨cells, pad, k, hlt, hk, hsend, hseg⟩ := RcsAtm.send_segmented m shortPacket
  obtain rfl : k = 0 := by
    have : 1 + pad + 8 = 48 * (k + 1) := hk
    omega
  obtain ⟨body, a, rfl, -, ha⟩ := hseg.frame
  obtain rfl : body = [] := List.length_eq_zero_iff.1 (by simpa using hseg.length)
  exact ⟨a, hsend, ha⟩

theorem longPacket_cells (m : RcsAtm) :
    ∃ b c, m.send longPacket = some [b, c] ∧ b.isLast = false ∧ c.isLast = true ∧
      c.payload = (pduAll longPacket.payload 40).drop 48 := by
  obtain ⟨cells, pad, k, hlt, hk, hsend, hseg⟩ := RcsAtm.send_segmented m longPacket
  have hflat := hseg.flatMap hk
  obtain ⟨rfl, rfl⟩ : k = 1 ∧ pad = 40 := by
    have : 48 + pad + 8 = 48 * (k + 1) := hk
    omega
  obtain ⟨body, c, rfl, hbody, hc⟩ := hseg.frame
  obtain ⟨b, rfl⟩ : ∃ b, body = [b] := List.length_eq_one_iff.1 (by simpa using hseg.length)
  refine ⟨b, c, hsend, hbody b (List.mem_singleton_self b), hc, ?_⟩
  rw [← hflat]
  show _ = (b.payload ++ (c.payload ++ [])).drop 48
  rw [List.drop_left' b.len, List.append_nil]

/-- The second cell of `longPacket` alone does not give the payload. -/
theorem second_cell_alone {c : AtmCell} {behind : Nat → Byte} {payload : List Byte}
    (hc : c.payload = (pduAll longPacket.payload 40).drop 48)
    (h : reassemble [c] behind = .ok (some payload)) : payload ≠ longPacket.payload := by
  have hlen : Aal5Pdu.payload_len ⟨ofList c.payload behind, 0, 40⟩ = 48 := by
    show LittleEndian.value (read (fun k => ofList c.payload behind (42 + k)) 2) = 48
    have hclen : c.payload.length = 48 := c.len
    rw [read_ofList (by omega), hc]
    rfl
  have hflat : [c].flatMap AtmCell.payload = c.payload := List.flatMap_singleton ..
  unfold reassemble RcsAtm._re_assembly_atm at h
  split_ifs at h with hhec
  · rw [hflat] at h
    dsimp only at h
    unfold RcsAtm._de_encapsulation_aal5 at h
    split_ifs at h with h0
    dsimp only at h
    split_ifs at h with hcrc
    · exact absurd (Except.ok.inj h) (by simp)
    obtain rfl := Option.some.inj (Except.ok.inj h)
    intro heq
    have hread : read (ofList c.payload behind) 48 = longPacket.payload := by
      rw [← hlen]; exact heq
    rw [read_ofList_take (by rw [c.len]), List.take_of_length_le (by rw [c.len]), hc] at hread
    exact absurd (congrArg List.head? hread) (by decide)
  · exact absurd (Except.ok.inj h) (by simp)

theorem recv_more {a : AtmArrival} (ha : a.cell.isLast = false) :
    recv s a = .ok (Function.update s a.flow.buffer (s a.flow.buffer ++ [a.cell]), none) :=
  if_neg (by rw [ha]; decide)

theorem recv_last {a : AtmArrival} {s' : AtmBuffers} {up : Option (AtmFlow × List Byte)}
    (ha : a.cell.isLast = true) (h : recv s a = .ok (s', up)) :
    s' = Function.update s a.flow.buffer [] ∧ ∃ o,
      reassemble (s a.flow.buffer ++ [a.cell]) a.behind = .ok o ∧ up = o.map fun p => (a.flow, p) := by
  unfold recv at h
  dsimp only at h
  rw [if_pos ha] at h
  split at h
  · exact absurd h (by simp)
  · rename_i hre
    obtain ⟨rfl, rfl⟩ := Prod.mk.inj (Except.ok.inj h)
    exact ⟨rfl, none, hre, rfl⟩
  · rename_i p hre
    obtain ⟨rfl, rfl⟩ := Prod.mk.inj (Except.ok.inj h)
    exact ⟨rfl, some p, hre, rfl⟩

theorem recvAll_cons {a : AtmArrival} {as : List AtmArrival} {ups : List (AtmFlow × List Byte)}
    (h : recvAll s (a :: as) = .ok ups) :
    ∃ s' up ups', recv s a = .ok (s', up) ∧ recvAll s' as = .ok ups' ∧ ups = up.toList ++ ups' := by
  unfold recvAll at h
  split at h
  · exact absurd h (by simp)
  · rename_i s' up hrecv
    split at h
    · exact absurd h (by simp)
    · rename_i ups' hrest
      exact ⟨s', up, ups', hrecv, hrest, (Except.ok.inj h).symm⟩

/-- The cell of one queue between the two of the other. -/
theorem collision_spoils {f g : AtmFlow} (hfg : f ≠ g) (hbuf : f.buffer = g.buffer)
    {a b c : AtmCell} (ha : a.isLast = true) (hb : b.isLast = false) (hc : c.isLast = true)
    (hpay : c.payload = (pduAll longPacket.payload 40).drop 48) {z : Nat → Byte}
    {ups : List (AtmFlow × List Byte)}
    (h : recvAll (fun _ => []) [⟨g, b, z⟩, ⟨f, a, z⟩, ⟨g, c, z⟩] = .ok ups) :
    (ups.filter (·.1 = g)).map Prod.snd ≠ [longPacket.payload] := by
  obtain ⟨s1, up1, ups1, h1, hr1, rfl⟩ := recvAll_cons h
  obtain ⟨s2, up2, ups2, h2, hr2, rfl⟩ := recvAll_cons hr1
  obtain ⟨s3, up3, ups3, h3, hr3, rfl⟩ := recvAll_cons hr2
  obtain rfl : ups3 = [] := (Except.ok.inj hr3).symm
  rw [recv_more (a := ⟨g, b, z⟩) hb] at h1
  obtain ⟨rfl, rfl⟩ := Prod.mk.inj (Except.ok.inj h1)
  -- the last cell of `f` empties the buffer
  obtain ⟨rfl, o2, -, rfl⟩ := recv_last (a := ⟨f, a, z⟩) ha h2
  obtain ⟨-, o3, hre, rfl⟩ := recv_last (a := ⟨g, c, z⟩) hc h3
  dsimp only at hre
  rw [hbuf, Function.update_self, List.nil_append] at hre
  have hne : (o3.map fun p => (g, p)).toList.map Prod.snd ≠ [longPacket.payload] := by
    cases o3 with
    | none => simp
    | some p => simpa using second_cell_alone hpay hre
  cases o2 with
  | none => cases o3 with
    | none => simp
    | some p => simpa using hne
  | some q => cases o3 with
    | none => simp [hfg]
    | some p => simpa [hfg] using hne

/-- **The condition is needed.** -/
theorem not_roundTrip {flows : Set AtmFlow} {f g : AtmFlow} (hf : f ∈ flows) (hg : g ∈ flows)
    (hfg : f ≠ g) (hbuf : f.buffer = g.buffer) : ¬ RoundTrip flows := by
  intro h
  obtain ⟨cells, hsend, hall⟩ := h (fun _ => ⟨0, 0⟩)
    (fun i => if i = f then [shortPacket] else if i = g then [longPacket] else [])
  obtain ⟨a, ha, hlast⟩ := shortPacket_cells ⟨0, 0⟩
  obtain ⟨b, c, hbc, hb, hc, hpay⟩ := longPacket_cells ⟨0, 0⟩
  have hcellsf : cells f = [a] := by
    have h := hsend f
    rw [if_pos rfl] at h
    unfold RcsAtm.sendAll at h
    rw [ha] at h
    exact (Option.some.inj h).symm
  have hcellsg : cells g = [b, c] := by
    have h := hsend g
    rw [if_neg hfg.symm, if_pos rfl] at h
    unfold RcsAtm.sendAll at h
    rw [hbc] at h
    exact (Option.some.inj h).symm
  have hcellsi : ∀ i, i ≠ f → i ≠ g → cells i = [] := by
    intro i hi hi'
    have h := hsend i
    rw [if_neg hi, if_neg hi'] at h
    exact (Option.some.inj h).symm
  obtain ⟨ups, hups, hout⟩ := hall [⟨g, b, fun _ => 0⟩, ⟨f, a, fun _ => 0⟩, ⟨g, c, fun _ => 0⟩]
    (by simp [hf, hg]) (fun i _ => by
      rcases eq_or_ne i f with rfl | hi
      · simp [hcellsf, hfg.symm]
      · rcases eq_or_ne i g with rfl | hi'
        · simp [hcellsg, hfg]
        · simp [hcellsi i hi hi', hi.symm, hi'.symm])
  refine collision_spoils hfg hbuf hlast hb hc hpay hups ?_
  rw [hout g hg, if_neg hfg.symm, if_pos rfl]
  rfl

/-- **Round trip.** Payloads of all queues come through every interleaving exactly when no two
    queues have the same buffer. -/
theorem roundTrip_iff (flows : Set AtmFlow) : RoundTrip flows ↔ flows.InjOn AtmFlow.buffer := by
  refine ⟨fun h f hf g hg hbuf => ?_, roundTrip_of_injOn⟩
  by_contra hfg
  exact not_roundTrip hf hg hfg hbuf h

/-- The queues 1 and 257 of one RCST have the same buffer. -/
theorem truncated_queue_id_spoils :
    ¬ RoundTrip {⟨0, 1, 1⟩, ⟨0, 1, 257⟩} :=
  not_roundTrip (f := ⟨0, 1, 1⟩) (g := ⟨0, 1, 257⟩) (.inl rfl) (.inr rfl) (by decide) (by decide)

end Dvb
