import Nctuns.Dvb.ErrorDetection
import Nctuns.Dvb.Proofs.RcsAtmProofs
import Nctuns.Lib.ShiftRegister

/-!
# What the receivers accept

The CRCs tell data apart that differ in one bit. A receiver accepts the word that the sender writes,
and every word with more one bits than that.
-/

namespace Dvb

open Memory ShiftRegister

/-! ### The CRC as a shift register -/

/-- The bits of a byte, from the highest one on. -/
abbrev places : List Byte := [0, 1, 2, 3, 4, 5, 6, 7]

/-- A bit of a byte, the highest first. -/
def dataBit (b j : Byte) : Bool := decide (b &&& ((0x80 : Byte) >>> j) ≠ 0)

/-- The bits of a byte. -/
def dataBits (b : Byte) : List Bool := places.map (dataBit b)

/-- A place in a byte is a number below 8. -/
theorem exists_of_places {j : Byte} (hj : j ∈ places) : ∃ k < 8, j = UInt8.ofNat k := by
  have hplaces : places = (List.range 8).map UInt8.ofNat := by decide
  rw [hplaces, List.mem_map] at hj
  obtain ⟨k, hk, rfl⟩ := hj
  exact ⟨k, List.mem_range.1 hk, rfl⟩

/-- The mask of a bit leaves nothing or itself. -/
theorem and_mask (b : Byte) {j : Byte} (hj : j ∈ places) :
    b &&& ((0x80 : Byte) >>> j) = if dataBit b j then (0x80 : Byte) >>> j else 0 := by
  have hone : ((0x80 : Byte) >>> j).toBitVec = BitVec.twoPow 8 (7 - j.toNat) := by
    obtain ⟨k, hk, rfl⟩ := exists_of_places hj
    revert k
    decide
  have hand : b &&& ((0x80 : Byte) >>> j) = (0x80 : Byte) >>> j ∨ b &&& ((0x80 : Byte) >>> j) = 0 := by
    have htop : b.toBitVec &&& BitVec.twoPow 8 (7 - j.toNat) =
        if b.toBitVec.getLsbD (7 - j.toNat) then BitVec.twoPow 8 (7 - j.toNat) else 0#8 :=
      BitVec.and_twoPow ..
    rw [← hone] at htop
    split at htop
    · exact .inl (UInt8.toBitVec_inj.1 htop)
    · exact .inr (UInt8.toBitVec_inj.1 htop)
  unfold dataBit
  split
  next h => exact hand.resolve_right (of_decide_eq_true h)
  next h => simpa using h

/-- One bit of a byte changed. -/
theorem dataBit_flip (b : Byte) {i j : Byte} (hi : i ∈ places) (hj : j ∈ places) :
    dataBit (b ^^^ ((0x80 : Byte) >>> j)) i = if i = j then !dataBit b j else dataBit b i := by
  have hmasks : ∀ i ∈ places, ∀ j ∈ places, ((0x80 : Byte) >>> j) &&& ((0x80 : Byte) >>> i) =
      if i = j then (0x80 : Byte) >>> i else 0 := by
    intro i hi j hj
    obtain ⟨k, hk, rfl⟩ := exists_of_places hi
    obtain ⟨n, hn, rfl⟩ := exists_of_places hj
    revert k n
    decide
  have hne : (0x80 : Byte) >>> i ≠ 0 := by
    obtain ⟨k, hk, rfl⟩ := exists_of_places hi
    revert k
    decide
  have hflip : (b ^^^ ((0x80 : Byte) >>> j)) &&& ((0x80 : Byte) >>> i) =
      (if dataBit b i then (0x80 : Byte) >>> i else 0) ^^^
        if i = j then (0x80 : Byte) >>> i else 0 := by
    rw [← and_mask b hi, ← hmasks i hi j hj]
    refine UInt8.toBitVec_inj.1 (BitVec.eq_of_getLsbD_eq fun k hk => ?_)
    simp [Bool.and_xor_distrib_right]
  have hdef : dataBit (b ^^^ ((0x80 : Byte) >>> j)) i =
      decide ((b ^^^ ((0x80 : Byte) >>> j)) &&& ((0x80 : Byte) >>> i) ≠ 0) := rfl
  rw [hdef, hflip]
  by_cases hij : i = j
  · subst hij
    cases dataBit b i <;> simp [hne]
  · cases dataBit b i <;> simp [hne, hij]

/-- The bits of a byte with one changed. -/
theorem dataBits_flip (b : Byte) {j : Byte} (hj : j ∈ places) : ∃ l c l', dataBits b = l ++ c :: l' ∧
    dataBits (b ^^^ ((0x80 : Byte) >>> j)) = l ++ (!c) :: l' := by
  obtain ⟨pre, post, hsplit⟩ := List.append_of_mem hj
  have hnodup : (pre ++ j :: post).Nodup := by
    rw [← hsplit]
    decide
  have hsame : ∀ i ∈ places, i ≠ j → dataBit (b ^^^ ((0x80 : Byte) >>> j)) i = dataBit b i :=
    fun i hi hij => by rw [dataBit_flip b hi hj, if_neg hij]
  have hpre : ∀ i ∈ pre, i ≠ j := fun i hi =>
    (List.nodup_append.1 hnodup).2.2 i hi j List.mem_cons_self
  have hpost : ∀ i ∈ post, i ≠ j := fun i hi hij =>
    (List.nodup_cons.1 (List.nodup_append.1 hnodup).2.1).1 (hij ▸ hi)
  refine ⟨pre.map (dataBit b), dataBit b j, post.map (dataBit b), ?_, ?_⟩
  · rw [dataBits, hsplit, List.map_append, List.map_cons]
  · rw [dataBits, hsplit, List.map_append, List.map_cons, dataBit_flip b hj hj, if_pos rfl]
    congr 1
    · exact List.map_congr_left fun i hi => hsame i (by rw [hsplit]; simp [hi]) (hpre i hi)
    · congr 1
      exact List.map_congr_left fun i hi => hsame i (by rw [hsplit]; simp [hi]) (hpost i hi)

/-- The top bit of a 32-bit register. -/
theorem and_top32 (s : UInt32) : s &&& 0x80000000 = if s.toBitVec.msb then 0x80000000 else 0 := by
  refine UInt32.toBitVec_inj.1 ?_
  have htop : s.toBitVec &&& BitVec.twoPow 32 31 =
      if s.toBitVec.getLsbD 31 then BitVec.twoPow 32 31 else 0#32 := BitVec.and_twoPow ..
  rw [BitVec.msb_eq_getLsbD_last]
  show s.toBitVec &&& BitVec.twoPow 32 31 = _
  rw [htop]
  cases s.toBitVec.getLsbD 31 <;> rfl

/-- The top bit of the low byte. -/
theorem and_top8 (s : UInt32) :
    s &&& 0x80 = if (s.toBitVec.setWidth 8).msb then 0x80 else 0 := by
  refine UInt32.toBitVec_inj.1 ?_
  have htop : s.toBitVec &&& BitVec.twoPow 32 7 =
      if s.toBitVec.getLsbD 7 then BitVec.twoPow 32 7 else 0#32 := BitVec.and_twoPow ..
  have hmsb : (s.toBitVec.setWidth 8).msb = s.toBitVec.getLsbD 7 := by
    simp [BitVec.msb_eq_getLsbD_last]
  rw [hmsb]
  show s.toBitVec &&& BitVec.twoPow 32 7 = _
  rw [htop]
  cases s.toBitVec.getLsbD 7 <;> rfl

/-- The condition of `Crc::crc` compares the highest bit with the bit that comes in. -/
theorem bit32_condition (s : UInt32) (b : Byte) {j : Byte} (hj : j ∈ places) :
    ((s &&& ((1 : UInt32) <<< (32 - 1))) ^^^
      ((b &&& ((0x80 : Byte) >>> j)).toUInt32 <<< (32 - 1 - (7 - j.toUInt32))) ≠ 0) ↔
    s.toBitVec.msb ≠ dataBit b j := by
  have hmask : (1 : UInt32) <<< (32 - 1) = 0x80000000 := by decide
  rw [and_mask b hj, hmask, and_top32]
  obtain ⟨k, hk, rfl⟩ := exists_of_places hj
  cases s.toBitVec.msb <;> cases dataBit b (UInt8.ofNat k) <;> revert k <;> decide

/-- The test of the 8-bit loop compares the top bit and the data bit. -/
theorem bit8_condition (s : UInt32) (b : Byte) {j : Byte} (hj : j ∈ places) :
    ((s &&& ((1 : UInt32) <<< (8 - 1))) ^^^
      ((b &&& ((0x80 : Byte) >>> j)).toUInt32 <<< (8 - 1 - (7 - j.toUInt32))) ≠ 0) ↔
    (s.toBitVec.setWidth 8).msb ≠ dataBit b j := by
  have hmask : (1 : UInt32) <<< (8 - 1) = 0x80 := by decide
  rw [and_mask b hj, hmask, and_top8]
  obtain ⟨k, hk, rfl⟩ := exists_of_places hj
  cases (s.toBitVec.setWidth 8).msb <;> cases dataBit b (UInt8.ofNat k) <;> revert k <;> decide

/-- One turn of the 32-bit loop is a step of the register. -/
theorem bit32_step (poly s : UInt32) (b : Byte) {j : Byte} (hj : j ∈ places) :
    (Crc.bit 32 poly b s j).toBitVec = step poly.toBitVec s.toBitVec (dataBit b j) := by
  have hcond := bit32_condition s b hj
  unfold Crc.bit step
  by_cases h : s.toBitVec.msb ≠ dataBit b j
  · rw [if_pos (hcond.2 h), if_pos h]
    rfl
  · rw [if_neg (mt hcond.1 h), if_neg h]
    rfl

/-- One turn of the 8-bit loop is a step of the register. -/
theorem bit8_step (poly s : UInt32) (b : Byte) {j : Byte} (hj : j ∈ places) :
    (Crc.bit 8 poly b s j).toUInt8.toBitVec =
      step poly.toUInt8.toBitVec s.toUInt8.toBitVec (dataBit b j) := by
  have hcond := bit8_condition s b hj
  have hmsb : s.toUInt8.toBitVec.msb = (s.toBitVec.setWidth 8).msb := rfl
  unfold Crc.bit step
  rw [hmsb]
  by_cases h : (s.toBitVec.setWidth 8).msb ≠ dataBit b j
  · rw [if_pos (hcond.2 h), if_pos h, UInt32.toUInt8_xor, UInt32.toUInt8_shiftLeft _ _ (by decide)]
    rfl
  · rw [if_neg (mt hcond.1 h), if_neg h, UInt32.toUInt8_shiftLeft _ _ (by decide)]
    rfl

section Stream

variable {w : Nat} {crc_len poly init : UInt32} {p : BitVec w} {f : UInt32 → BitVec w}

/-- The bytes of a block as the stream of their bits. -/
theorem foldl_byte
    (hbit : ∀ s b, ∀ j ∈ places, f (Crc.bit crc_len poly b s j) = step p (f s) (dataBit b j))
    (l : List Byte) (s : UInt32) :
    f (l.foldl (Crc.byte crc_len poly) s) = run p (f s) (l.flatMap dataBits) := by
  have hbyte : ∀ (js : List Byte), js ⊆ places → ∀ b s,
      f (js.foldl (Crc.bit crc_len poly b) s) = run p (f s) (js.map (dataBit b)) := by
    intro js
    induction js with
    | nil => exact fun _ b s => rfl
    | cons j js ih =>
      intro hsub b s
      rw [List.foldl_cons, List.map_cons, run_cons, ← hbit s b j (hsub List.mem_cons_self)]
      exact ih (fun i hi => hsub (List.mem_cons_of_mem j hi)) b _
  induction l generalizing s with
  | nil => rfl
  | cons b l ih =>
    rw [List.foldl_cons, List.flatMap_cons, run_append, ih]
    exact congrArg (fun r => run p r (l.flatMap dataBits)) (hbyte places (List.Subset.refl _) b s)

/-- The CRC tells blocks apart that differ in one bit. -/
theorem crc_ne_of_oneBit (hw : 0 < w) (hp : p.getLsbD 0 = true)
    (hbit : ∀ s b, ∀ j ∈ places, f (Crc.bit crc_len poly b s j) = step p (f s) (dataBit b j))
    {l l' : List Byte} (h : OneBit l l') :
    f (Crc.crc l crc_len poly init) ≠ f (Crc.crc l' crc_len poly init) := by
  obtain ⟨pre, b, post, j, rfl, rfl⟩ := h
  have hplaces : ∀ j : Fin 8, UInt8.ofNat j ∈ places := by decide
  obtain ⟨x, c, y, hx, hy⟩ := dataBits_flip b (hplaces j)
  have hlen : ∀ b', (pre ++ b' :: post).length ≠ 0 := by simp
  unfold Crc.crc
  rw [if_neg (hlen _), if_neg (hlen _), foldl_byte hbit, foldl_byte hbit, List.flatMap_append,
    List.flatMap_cons, List.flatMap_append, List.flatMap_cons, hx, hy]
  have hflip := run_ne_of_flip (r := f (if init = 1 then 0xFFFFFFFF else 0x00)) hw hp
    (pre.flatMap dataBits ++ x) (y ++ post.flatMap dataBits) c
  simpa only [List.append_assoc, List.cons_append] using hflip

end Stream

/-- A flipped bit changes the CRC32. -/
theorem CRC32_ne_of_oneBit {l l' : List Byte} (h : OneBit l l') :
    CRC32 l IEEE_8023_CRC32_POLY 1 ≠ CRC32 l' IEEE_8023_CRC32_POLY 1 := by
  intro heq
  exact crc_ne_of_oneBit (by decide) (by decide) (fun s b j hj => bit32_step _ s b hj) h
    (congrArg UInt32.toBitVec heq)

/-- A flipped bit changes the CRC8. -/
theorem CRC8_ne_of_oneBit {l l' : List Byte} (h : OneBit l l') :
    CRC8 l ATM_HEX_CRC8_POLY 1 ≠ CRC8 l' ATM_HEX_CRC8_POLY 1 := by
  intro heq
  exact crc_ne_of_oneBit (f := fun s => s.toUInt8.toBitVec) (by decide) (by decide)
    (fun s b j hj => bit8_step _ s b hj) h (congrArg UInt8.toBitVec heq)

/-! ### Blocks that differ in one bit -/

/-- A flipped bit changes the bytes. -/
theorem OneBit.ne {l l' : List Byte} (h : OneBit l l') : l ≠ l' := by
  obtain ⟨pre, b, post, j, rfl, rfl⟩ := h
  intro heq
  have hhead := (List.cons.inj (List.append_cancel_left heq)).1
  have hmask : ∀ j : Fin 8, (0x80 : Byte) >>> UInt8.ofNat j ≠ 0 := by decide
  refine hmask j ?_
  have hcancel : b ^^^ b = b ^^^ (b ^^^ ((0x80 : Byte) >>> UInt8.ofNat j)) := by rw [← hhead]
  rw [UInt8.xor_self, ← UInt8.xor_assoc, UInt8.xor_self, UInt8.zero_xor] at hcancel
  exact hcancel.symm

/-- The bit is in the front part or in the one behind it. -/
theorem OneBit.append {x y x' y' : List Byte} (h : OneBit (x ++ y) (x' ++ y'))
    (hlen : x.length = x'.length) : OneBit x x' ∧ y = y' ∨ x = x' ∧ y ≠ y' := by
  by_cases hx : x = x'
  · subst hx
    exact .inr ⟨rfl, fun hy => h.ne (by rw [hy])⟩
  · left
    obtain ⟨pre, b, post, j, hl, hr⟩ := h
    rcases List.append_eq_append_iff.1 hl with ⟨z, rfl, -⟩ | ⟨z, rfl, hz⟩
    · rw [List.append_assoc] at hr
      exact absurd (List.append_inj_left hr.symm hlen) hx
    · cases z with
      | nil =>
        rw [List.append_nil] at hlen hx
        exact absurd (List.append_inj_left hr.symm hlen) hx
      | cons c z =>
        obtain ⟨rfl, rfl⟩ := List.cons.inj hz
        have hr' : x' ++ y' = (pre ++ (b ^^^ ((0x80 : Byte) >>> UInt8.ofNat j)) :: z) ++ y := by
          simpa using hr
        have hlen' : x'.length = (pre ++ (b ^^^ ((0x80 : Byte) >>> UInt8.ofNat j)) :: z).length := by
          rw [← hlen]
          simp
        obtain ⟨rfl, rfl⟩ := List.append_inj hr' hlen'
        exact ⟨⟨pre, b, z, j, rfl, rfl⟩, rfl⟩

/-! ### What is accepted -/

/-- When an inclusive or is all ones. -/
theorem or_eq_allOnes_iff {w : Nat} (x y : BitVec w) :
    x ||| y = BitVec.allOnes w ↔ x = ~~~y ∨ x &&& ~~~y = ~~~y ∧ x ≠ ~~~y := by
  have hor : x ||| y = BitVec.allOnes w ↔ x &&& ~~~y = ~~~y := by
    simp only [BitVec.eq_of_getLsbD_eq_iff]
    refine forall₂_congr fun i hi => ?_
    cases hx : x[i] <;> cases hy : y[i] <;> simp [hx, hy, hi]
  rw [hor]
  constructor
  · intro h
    by_cases heq : x = ~~~y
    · exact .inl heq
    · exact .inr ⟨h, heq⟩
  · rintro (rfl | h)
    · exact BitVec.and_self
    · exact h.1

/-- The test on 32 bits. -/
theorem or32_iff (x c : UInt32) : x ||| c = 0xFFFFFFFF ↔ x = ~~~c ∨ Exceeds x (~~~c) := by
  simp only [Exceeds, ← UInt32.toBitVec_inj, ne_eq]
  exact or_eq_allOnes_iff x.toBitVec c.toBitVec

/-- The test on 8 bits. -/
theorem or8_iff (x c : UInt8) : x ||| c = 0xFF ↔ x = ~~~c ∨ Exceeds x (~~~c) := by
  simp only [Exceeds, ← UInt8.toBitVec_inj, ne_eq]
  exact or_eq_allOnes_iff x.toBitVec c.toBitVec

section Accepted

variable {α : Type} [AndOp α] {stored written : α} {A : Prop}

/-- A receiver that accepts the word of the sender and those that exceed it. -/
theorem exact_iff (h : A ↔ stored = written ∨ Exceeds stored written) :
    (A ↔ stored = written) ↔ ¬ Exceeds stored written := by
  rw [h]
  constructor
  · intro hiff hex
    exact hex.2 (hiff.1 (.inr hex))
  · intro hex
    exact ⟨fun hor => hor.resolve_right hex, .inl⟩

/-- A word that was changed is rejected unless it exceeds the written one. -/
theorem rejects_iff (h : A ↔ stored = written ∨ Exceeds stored written) (hne : stored ≠ written) :
    ¬ A ↔ ¬ Exceeds stored written := by
  rw [h, not_or]
  exact and_iff_right hne

end Accepted

namespace SectionBuf

variable {s t : SectionBuf}

/-- The bytes end in the stored word. -/
theorem bytes_eq (s : SectionBuf) : s.bytes = s.rest ++ LittleEndian.bytes 4 s.stored.toNat := by
  have hlen : (s.bytes.drop (s.bytes.length - 4)).length = 4 := by
    rw [List.length_drop]
    have := s.crc
    omega
  have hlt := LittleEndian.value_lt (s.bytes.drop (s.bytes.length - 4))
  have hback := LittleEndian.bytes_value (s.bytes.drop (s.bytes.length - 4))
  rw [hlen] at hlt hback
  rw [stored, UInt32.toNat_ofNat_of_lt' hlt, hback, rest, List.take_append_drop]

/-- The bytes before the CRC. -/
theorem length_rest (s : SectionBuf) : s.rest.length = s.bytes.length - 4 := by
  rw [rest, List.length_take]
  omega

/-- **Sections.** What `crc_okay` accepts. -/
theorem crc_okay_iff (s : SectionBuf) :
    crc_okay s.bytes = true ↔ s.stored = s.written ∨ Exceeds s.stored s.written := by
  have hcrc := s.crc
  have htake : (s.bytes.drop (s.bytes.length - 4)).take 4 = s.bytes.drop (s.bytes.length - 4) :=
    List.take_of_length_le (by rw [List.length_drop]; omega)
  refine Iff.trans ?_ (or32_iff s.stored (CRC32 s.rest IEEE_8023_CRC32_POLY 1))
  simp only [crc_okay, s.whole, htake, decide_eq_true_iff]
  rfl

/-- The CRC field is what `fill_crc` writes. -/
theorem fill_crc_iff (s : SectionBuf) : fill_crc s.bytes = s.bytes ↔ s.stored = s.written := by
  have hcrc := s.crc
  have hfill : fill_crc s.bytes = s.rest ++ LittleEndian.bytes 4 s.written.toNat := by
    have hdrop : s.bytes.drop (s.bytes.length - 4 + 4) = [] := List.drop_eq_nil_of_le (by omega)
    simp only [fill_crc, s.whole, hdrop, List.append_nil]
    rfl
  have hbytes := s.bytes_eq
  constructor
  · intro h
    rw [hfill] at h
    have hval := congrArg LittleEndian.value (List.append_cancel_left (h.trans hbytes))
    rw [LittleEndian.value_bytes (UInt32.toNat_lt _), LittleEndian.value_bytes (UInt32.toNat_lt _)] at hval
    exact (UInt32.toNat_inj.1 hval).symm
  · intro h
    rw [hfill, ← h, ← hbytes]

/-- An error of one bit makes the CRC field wrong. -/
theorem stored_ne_of_oneBit (hs : s.stored = s.written) (h : OneBit s.bytes t.bytes) :
    t.stored ≠ t.written := by
  intro ht
  have hlen : s.bytes.length = t.bytes.length := by
    obtain ⟨pre, b, post, j, hl, hr⟩ := h
    rw [hl, hr]
    simp
  rw [s.bytes_eq, t.bytes_eq] at h
  rcases h.append (by rw [length_rest, length_rest, hlen]) with ⟨hrest, hstored⟩ | ⟨hrest, hstored⟩
  · have hval := congrArg LittleEndian.value hstored
    rw [LittleEndian.value_bytes (UInt32.toNat_lt _), LittleEndian.value_bytes (UInt32.toNat_lt _)] at hval
    have hsame : s.written = t.written := by rw [← hs, ← ht, UInt32.toNat_inj.1 hval]
    exact CRC32_ne_of_oneBit hrest (UInt32.not_inj.1 hsame)
  · refine hstored ?_
    rw [hs, ht, written, written, hrest]

end SectionBuf

namespace Aal5Frame

variable {p q : Aal5Frame}

/-- **AAL5.** What the receiver accepts. -/
theorem accepted_iff (p : Aal5Frame) :
    p.Accepted ↔ p.crc32 = p.written ∨ Exceeds p.crc32 p.written := by
  refine Iff.trans ?_ (or32_iff p.crc32 (CRC32 p.rest IEEE_8023_CRC32_POLY 1))
  have hpos : p.payload_len ≠ 0 := Nat.ne_of_gt p.payload
  have hrest : read p.data (p.payload_len + p.padding_len.toNat + 4) = p.rest := by
    rw [p.whole]
    rfl
  unfold Accepted RcsAtm._de_encapsulation_aal5
  simp only [if_neg hpos, hrest]
  split
  next h => simp [h]
  next h => simpa using h

theorem bytes_eq (p : Aal5Frame) : p.bytes = p.rest ++ LittleEndian.bytes 4 p.crc32.toNat := by
  have hlen : (read (fun k => p.data (p.trailer + 4 + k)) 4).length = 4 := length_read _ _
  have hlt := LittleEndian.value_lt (read (fun k => p.data (p.trailer + 4 + k)) 4)
  have hback := LittleEndian.bytes_value (read (fun k => p.data (p.trailer + 4 + k)) 4)
  rw [hlen] at hlt hback
  rw [Aal5Pdu.crc32, UInt32.toNat_ofNat_of_lt' hlt, hback]
  exact read_add p.data (p.trailer + 4) 4

/-- The PDU of a payload is a frame with its own CRC. -/
theorem of_encapsulation {payload : List Byte} (hpos : 0 < payload.length)
    (hfits : payload.length ≤ 65535) : ∃ p : Aal5Frame,
      RcsAtm._encapsulation_aal5 payload = some p.toAal5Pdu ∧ p.crc32 = p.written := by
  obtain ⟨pad, k, hpad, hlt, hk⟩ := padding_spec payload.length
  have hbyte : (UInt8.ofNat pad).toNat = pad := UInt8.toNat_ofNat_of_lt (show pad < 256 by omega)
  have hfields := trailer_fields hfits pad (fun _ => 0) (.ofNat pad)
  have hrest : read (ofList (pduAll payload pad) fun _ => 0) (payload.length + pad + 4) =
      RcsAtm.pduBytes payload pad := by
    rw [read_ofList_take (by rw [length_pduAll]; omega), pduAll,
      List.take_left' (length_pduBytes payload pad)]
  refine ⟨⟨⟨ofList (pduAll payload pad) fun _ => 0, .ofNat pad, payload.length + pad⟩, ?_, ?_⟩, ?_, ?_⟩
  · rw [hfields.1, hbyte]
  · rw [hfields.1]
    exact hpos
  · refine (if_neg (Nat.ne_of_gt hpos)).trans ?_
    show some _ = _
    rw [hpad]
    rfl
  · refine hfields.2.trans ?_
    rw [written, rest, hrest]

/-- An error of one bit makes the CRC of the trailer wrong. -/
theorem crc32_ne_of_oneBit (hp : p.crc32 = p.written) (h : OneBit p.bytes q.bytes) :
    q.crc32 ≠ q.written := by
  intro hq
  have hlen : p.bytes.length = q.bytes.length := by
    obtain ⟨pre, b, post, j, hl, hr⟩ := h
    rw [hl, hr]
    simp
  have hrestlen : p.rest.length = q.rest.length := by
    rw [bytes, length_read, bytes, length_read] at hlen
    rw [rest, length_read, rest, length_read]
    omega
  rw [p.bytes_eq, q.bytes_eq] at h
  rcases h.append hrestlen with ⟨hrest, hstored⟩ | ⟨hrest, hstored⟩
  · have hval := congrArg LittleEndian.value hstored
    rw [LittleEndian.value_bytes (UInt32.toNat_lt _), LittleEndian.value_bytes (UInt32.toNat_lt _)] at hval
    have hsame : p.written = q.written := by rw [← hp, ← hq, UInt32.toNat_inj.1 hval]
    exact CRC32_ne_of_oneBit hrest (UInt32.not_inj.1 hsame)
  · refine hstored ?_
    rw [hp, hq, written, written, hrest]

end Aal5Frame

namespace AtmCell

variable {c c' : AtmCell} {pre post : List AtmCell}

theorem makeCell_written (m : RcsAtm) (data : Nat → Byte) (i : Nat) (pt : Byte) (c : AtmCell) :
    (m.makeCell data i pt c).hec = (m.makeCell data i pt c).written := rfl

/-- The cells of a buffer whose other headers are as they were sent. -/
theorem reassembled_iff (hpre : ∀ x ∈ pre ++ post, x.hec = x.written) (behind : Nat → Byte) :
    (RcsAtm._re_assembly_atm (pre ++ c :: post) behind).isSome = true ↔
      c.hec = c.written ∨ Exceeds c.hec c.written := by
  refine Iff.trans ?_ (or8_iff c.hec c.headerCrc)
  have hother : ∀ x ∈ pre ++ post, x.hec ||| x.headerCrc = 0xFF := fun x hx =>
    (or8_iff x.hec x.headerCrc).2 (.inl (hpre x hx))
  have hall : ((pre ++ c :: post).all fun cell => cell.hec ||| cell.headerCrc = 0xFF) = true ↔
      c.hec ||| c.headerCrc = 0xFF := by
    simp only [List.all_eq_true, decide_eq_true_iff]
    constructor
    · intro h
      exact h c (by simp)
    · intro h x hx
      rcases List.mem_append.1 hx with hx | hx
      · exact hother x (List.mem_append_left _ hx)
      · rcases List.mem_cons.1 hx with rfl | hx
        · exact h
        · exact hother x (List.mem_append_right _ hx)
  unfold RcsAtm._re_assembly_atm
  rw [← hall]
  split
  next h => simp [h]
  next h => simp [h]

/-- An error of one bit makes the header's CRC wrong. -/
theorem hec_ne_of_oneBit (hc : c.hec = c.written) (h : OneBit c.headerBytes c'.headerBytes) :
    c'.hec ≠ c'.written := by
  intro hc'
  have hsplit : ∀ x : AtmCell, x.headerBytes = [x.header0, x.header1, x.header2, x.header3] ++ [x.hec] :=
    fun x => rfl
  rw [hsplit, hsplit] at h
  have hzero : ∀ {x y : List Byte}, OneBit x y → OneBit (x ++ [0]) (y ++ [0]) := by
    rintro x y ⟨pre, b, post, j, rfl, rfl⟩
    exact ⟨pre, b, post ++ [0], j, by simp, by simp⟩
  rcases h.append rfl with ⟨hrest, hhec⟩ | ⟨hrest, hhec⟩
  · have hsame : c.written = c'.written := by
      rw [← hc, ← hc']
      exact (List.cons.inj hhec).1
    exact CRC8_ne_of_oneBit (hzero hrest) (UInt8.not_inj.1 hsame)
  · have hcrc : c.headerCrc = c'.headerCrc := by
      obtain ⟨h0, h1, h2, h3, -⟩ : c.header0 = c'.header0 ∧ c.header1 = c'.header1 ∧
          c.header2 = c'.header2 ∧ c.header3 = c'.header3 ∧ True := by simpa using hrest
      rw [headerCrc, headerCrc, h0, h1, h2, h3]
    refine hhec ?_
    rw [hc, hc', written, written, hcrc]

end AtmCell

end Dvb
