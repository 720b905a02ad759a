import Nctuns.Dvb.FecLink
import Nctuns.Dvb.Proofs.DvbS2Proofs
import Nctuns.Dvb.Proofs.FecProofs

/-!
# The framing over the error correction

A frame whose errors are corrected comes as it was filled, so the receiver reads the same header and the
same data field from it: the link behaves as one that loses nothing.
-/

namespace Dvb

open Memory

variable {f g : BaseBandFrame} {d d' : Feeder} {ct : CodingType} {id : UInt8} {l : List Byte} {m : ℕ}
  {frame : List (BitVec 8)}

/-! ### A frame as bytes -/

theorem join_bytes (x : UInt16) : x.toUInt8.toUInt16 ||| (x >>> 8).toUInt8.toUInt16 <<< 8 = x := by
  apply UInt16.toNat_inj.1
  have hx := x.toNat_lt
  have hlow : x.toUInt8.toUInt16.toNat = x.toNat % 256 := by simp
  have hhigh : ((x >>> 8).toUInt8.toUInt16 <<< 8).toNat = (x.toNat / 256) <<< 8 := by
    rw [UInt16.toNat_shiftLeft]
    simp [Nat.shiftRight_eq_div_pow, Nat.shiftLeft_eq]
    omega
  rw [UInt16.toNat_or, hlow, hhigh, Nat.or_comm, ← Nat.shiftLeft_add_eq_or_of_lt (by omega), Nat.shiftLeft_eq]
  omega

/-- What is written to a frame: header, CRC and data field. -/
def BaseBandFrame.content (f : BaseBandFrame) : List Byte :=
  f.header.bytes ++ f.header._crc_8 :: read f.data_field (f.header._data_field_length.toNat / 8)

theorem length_content : f.content.length = header_size + f.header._data_field_length.toNat / 8 := by
  rw [BaseBandFrame.content, List.length_append, List.length_cons, length_read]
  show 9 + (_ + 1) = 10 + _
  omega

theorem length_fill (len : ℕ) (junk : ℕ → Byte) : (f.fill len junk).length = len := by
  rw [BaseBandFrame.fill, List.length_map, length_read]

theorem take_fill {len : ℕ} (junk : ℕ → Byte)
    (h : header_size + f.header._data_field_length.toNat / 8 ≤ len) :
    (f.fill len junk).take (header_size + f.header._data_field_length.toNat / 8) =
      f.content.map UInt8.toBitVec := by
  have hread : (read (ofList f.content junk) len).take f.content.length = f.content := by
    unfold Memory.read
    rw [← List.map_take, List.take_range, Nat.min_eq_left (length_content.symm ▸ h)]
    exact read_eq fun k hk => ofList_of_lt hk
  rw [BaseBandFrame.fill, ← List.map_take, ← length_content]
  exact congrArg (List.map UInt8.toBitVec) hread

/-- A frame that comes with its content and the padding. -/
theorem frameByte_eq {n i : ℕ} (h : frame.take n = l.map UInt8.toBitVec ++ List.replicate (n - l.length) 0)
    (hi : i < n) : frameByte frame i = ofList l (fun _ => 0) i := by
  have hget : frame[i]? = (l.map UInt8.toBitVec ++ List.replicate (n - l.length) 0)[i]? := by
    rw [← h, List.getElem?_take, if_pos hi]
  rw [frameByte, List.getD_eq_getElem?_getD, hget, ofList, List.getD_eq_getElem?_getD]
  rcases Nat.lt_or_ge i l.length with hlt | hge
  · rw [List.getElem?_append_left (by rwa [List.length_map]), List.getElem?_map, List.getElem?_eq_getElem hlt]
    rfl
  · rw [List.getElem?_append_right (by rwa [List.length_map]), List.length_map, List.getElem?_replicate,
      if_pos (by omega), List.getElem?_eq_none hge]
    rfl

/-! ### What the receiver reads -/

theorem slices_congr {a b : ℕ → Byte} {len : ℕ} (h : ∀ k < len, a k = b k) (fuel i : ℕ) :
    Rcst.slices a len fuel i = Rcst.slices b len fuel i := by
  induction fuel generalizing i with
  | zero => rfl
  | succ fuel ih =>
    unfold Rcst.slices
    split
    next hi =>
      have hlast : a (i + MPEG2_TS_LEN - 1) = b (i + MPEG2_TS_LEN - 1) := h _ (by
        have : MPEG2_TS_LEN = 188 := rfl
        omega)
      have hread : read (fun k => a (i + k)) (MPEG2_TS_LEN - 1) = read (fun k => b (i + k)) (MPEG2_TS_LEN - 1) :=
        read_congr fun k hk => h _ (by omega)
      rw [hlast, hread, ih]
    next => rfl

/-- The receiver reads the header and the beginning of the data field. -/
theorem demultiplexer_congr (r : Rcst) {n : ℕ} (hheader : f.header = g.header)
    (hdata : ∀ k < n, f.data_field k = g.data_field k) (hlen : g.header._data_field_length.toNat / 8 ≤ n)
    (hsyncd : g.header._syncd.toNat / 8 < n) : r._demultiplexer f = r._demultiplexer g := by
  have hfirst : ∀ b, Rcst.recompose b f.data_field g.header._syncd.toNat =
      Rcst.recompose b g.data_field g.header._syncd.toNat := by
    intro b
    unfold Rcst.recompose
    rw [read_congr fun k hk => hdata k (by omega)]
  have hslices := slices_congr fun k hk => hdata k (Nat.lt_of_lt_of_le hk hlen)
  have hrest : ∀ i, Memory.read (fun k => f.data_field (i + k)) (g.header._data_field_length.toNat / 8 - i) =
      Memory.read (fun k => g.data_field (i + k)) (g.header._data_field_length.toNat / 8 - i) :=
    fun i => read_congr fun k hk => hdata _ (by omega)
  unfold Rcst._demultiplexer
  rw [hheader]
  simp only [hfirst, hslices, hrest]



/-- Reading a list and the zeros behind it back. -/
theorem ofList_read {l : List Byte} (h : l.length ≤ m) (k : ℕ) :
    ofList (Memory.read (ofList l fun _ => 0) m) (fun _ => 0) k = ofList l (fun _ => 0) k := by
  rcases Nat.lt_or_ge k m with hk | hk
  · rw [ofList_of_lt (by rwa [length_read]), getElem_read]
  · rw [ofList, ofList, List.getD_eq_default _ _ (by rwa [length_read]), List.getD_eq_default _ _ (by omega)]

/-- The data field begins behind the header. -/
theorem ofList_content (f : BaseBandFrame) (k : ℕ) : ofList f.content (fun _ => 0) (header_size + k) =
    ofList (Memory.read f.data_field (f.header._data_field_length.toNat / 8)) (fun _ => 0) k := by
  rw [Nat.add_comm]
  rfl

/-- The frame of the feeder as it was cut and as it comes, up to the end of the padding. -/
theorem demultiplex_recovered (r : Rcst) (hf : Sliced d ct f d' id l m)
    (h : frame.take (ct.bchUncoded / 8) =
      f.content.map UInt8.toBitVec ++ List.replicate (ct.bchUncoded / 8 - f.content.length) 0) :
    r.demultiplex frame = r._demultiplexer f := by
  have hbyte : ∀ i < ct.bchUncoded / 8, frameByte frame i = ofList f.content (fun _ => 0) i :=
    fun i hi => frameByte_eq h hi
  have hroom := (bchUncoded_bounds ct).1
  have hsize : header_size = 10 := rfl
  have hheader : ∀ i < header_size, frameByte frame i = ofList f.content (fun _ => 0) i :=
    fun i hi => hbyte i (by omega)
  have hlength : frameWord frame 4 = f.header._data_field_length := by
    rw [frameWord, hheader 4 (by decide), hheader 5 (by decide)]
    exact join_bytes _
  have hsyncd : frameWord frame 7 = f.header._syncd := by
    rw [frameWord, hheader 7 (by decide), hheader 8 (by decide)]
    exact join_bytes _
  have hstream : frameByte frame 1 = f.header._input_stream_id := hheader 1 (by decide)
  have hcrc : frameByte frame 9 = f.header._crc_8 := hheader 9 (by decide)
  have hbytes : Memory.read (frameByte frame) (header_size - 1) = f.header.bytes := by
    rw [show header_size - 1 = f.header.bytes.length from rfl]
    refine read_eq fun k hk => ?_
    rw [hheader k (Nat.lt_succ_of_lt hk), BaseBandFrame.content,
      ofList_of_lt (by rw [List.length_append]; exact Nat.lt_add_right _ hk), List.getElem_append_left hk]
  unfold Rcst.demultiplex apply_base_band_header
  dsimp only
  rw [hbytes, hlength, hsyncd, hstream, hcrc, if_neg (not_not.2 hf.crc)]
  refine demultiplexer_congr (n := ct.bchUncoded / 8 - header_size) r ?_ (fun k hk => ?_) ?_ ?_
  · show BaseBandHeader.mk _ _ _ (_crc_8 f.header.bytes DVB_CRC8_GEN_POLY) = f.header
    rw [← hf.crc]
  · show frameByte frame (header_size + k) = f.data_field k
    rw [hbyte _ (by omega), ofList_content, hf.length, hf.data, ofList_read (List.length_take_le m l)]
  · have := hf.amount
    have := hf.length
    omega
  · have := hf.syncd
    omega

/-! ### Runs -/

namespace FecLink

variable {F : BchMode → Type} [∀ mode, Field (F mode)]
  {gf : (mode : BchMode) → GaloisField mode.m mode.prim_poly (F mode)} {on : Bool} {s : FecLink F}
  {pls : Dvb_s2_pls} {passage : Passage} {a : FecLinkAction}

/-- The link as it is without the error correction, no frame being lost, and what is set up. -/
structure Inv (gf : (mode : BchMode) → GaloisField mode.m mode.prim_poly (F mode)) (s : FecLink F) : Prop where
  link : LinkInv s.link
  systems : s.systems.Sound gf
  aired : ∀ id, s.link.aired id = List.replicate (s.link.aired id).length true

theorem Inv.carries (h : s.Inv gf) : s.Carries := by
  intro id
  rw [((h.link).streams id).delivered, h.aired id, Blocks.marked_replicate_true (by decide),
    List.length_replicate]

theorem Inv.resynced (h : s.Inv gf) (id : UInt8) : (s.link.aired id).getLast? ≠ some false := by
  intro hlast
  have hmem := List.mem_of_getLast? hlast
  rw [h.aired id] at hmem
  exact absurd (List.eq_of_mem_replicate hmem) (by decide)

theorem init_inv (n : UInt8) (size : ℕ) (junk : ℕ → Byte) : (init n size junk : FecLink F).Inv gf where
  link := Dvb.init_inv n size junk
  systems := FecSystems.sound_empty
  aired _ := rfl

/-- A frame of the feeder can be encoded. -/
theorem fits_transmission (hf : Sliced d ct f d' id l m) (hct : pls.coding_type = .ok ct) :
    (f.transmission pls passage).Fits ct where
  coding_type := hct
  length := length_fill ..
  content := by
    show header_size + f.header._data_field_length.toNat / 8 ≤ _
    have := hf.amount
    have := hf.length
    have := (bchUncoded_bounds ct).1
    omega

/-- The frame that is encoded is the content with the padding. -/
theorem padded_transmission (hf : Sliced d ct f d' id l m) (hct : pls.coding_type = .ok ct) :
    (f.transmission pls passage).padded ct =
      f.content.map UInt8.toBitVec ++ List.replicate (ct.bchUncoded / 8 - f.content.length) 0 := by
  have hfits := (fits_transmission hf hct : (f.transmission pls passage).Fits ct).content
  have hroom : header_size + f.header._data_field_length.toNat / 8 ≤ pls._fec_frame_size.bits / 8 :=
    Nat.le_trans hfits (uncoded_le_bits hct)
  unfold FecSystems.Transmission.padded
  rw [length_content]
  exact congrArg (· ++ _) (take_fill passage.junk hroom)

theorem aired_of_send {k k' : Link} {interface : UInt8} {u : List Byte}
    (h : k.step (.send interface u) = .ok k') : k'.aired = k.aired := by
  unfold Link.step at h
  dsimp only at h
  split at h
  · cases h
  · obtain rfl := Except.ok.inj h
    rfl
  · obtain rfl := Except.ok.inj h
    rfl

/-- A call does to the link what it does without error correction. -/
theorem call_spec (h : s.Inv gf) {b : LinkAction} (hsync : s.link.Resynced b)
    (haired : ∀ k, s.link.step b = .ok k → k.aired = s.link.aired) :
    (s.call b = .error (.link .feeder) ∧ s.link.step b = .error .feeder) ∨
      ∃ s', s.call b = .ok s' ∧ s.link.step b = .ok s'.link ∧ s'.Inv gf := by
  unfold call
  obtain he | ⟨k, hk, hinv⟩ := Dvb.step_spec h.link hsync
  · rw [he]
    exact .inl ⟨rfl, rfl⟩
  · rw [hk]
    refine .inr ⟨_, rfl, rfl, hinv, h.systems, ?_⟩
    rw [haired k hk]
    exact h.aired

variable [∀ mode, DecidableEq (F mode)]

/-- The LDPC decoder leaves no more wrong bits in a frame than the BCH code corrects. -/
def Correctable (gf : (mode : BchMode) → GaloisField mode.m mode.prim_poly (F mode)) (on : Bool) (s : FecLink F) :
    FecLinkAction → Prop
  | .tx pls passage => ∀ ct f feeder systems r, pls.coding_type = .ok ct →
      s.link.feeder._merger_slicer ct = .ok (some f, feeder) →
      s.systems.transmit gf on (f.transmission pls passage) = .ok (systems, r) →
      (differing ct.bchCoded r.sent r.ldpc).length ≤ ct.bchTErr
  | _ => True

/-- A frame whose errors can be corrected does to the link what a received frame does without errors. -/
theorem transmit_spec (h : s.Inv gf) (hct : pls.coding_type = .ok ct)
    (hslice : s.link.feeder._merger_slicer ct = .ok (some f, d'))
    (hcorrectable : s.Correctable gf on (.tx pls passage)) :
    ∃ s', transmit gf on { s with link := { s.link with feeder := d' } } f (f.transmission pls passage) = .ok s' ∧
      Link.transmit { s.link with feeder := d' } f true = .ok s'.link ∧ s'.Inv gf := by
  obtain ⟨id, m, hf⟩ := merger_slicer_spec h.link.next (fun id => (h.link.streams id).input) hslice
  obtain ⟨systems, r, hr, hsound, hrecovers⟩ := h.systems.transmit on (fits_transmission hf hct)
  have hframe := hrecovers.corrects (hcorrectable ct f d' systems r hct hslice hr)
  rw [padded_transmission hf hct] at hframe
  have hdemux := demultiplex_recovered s.link.rcst hf hframe
  obtain ⟨k, hk, hinv⟩ := Dvb.transmit_spec h.link hslice fun _ => .inr (h.resynced _)
  unfold Link.transmit at hk
  dsimp only at hk
  rw [if_pos rfl] at hk
  split at hk
  · cases hk
  next rcst ups hsame =>
    obtain rfl := Except.ok.inj hk
    refine ⟨⟨_, systems⟩, ?_, ?_, hinv, hsound, fun i => ?_⟩
    · unfold transmit
      rw [hr]
      dsimp only
      rw [hdemux, hsame]
    · unfold Link.transmit
      dsimp only
      rw [if_pos rfl, hsame]
    · dsimp only
      rcases eq_or_ne i f.header._input_stream_id with rfl | hne
      · rw [Function.update_self, h.aired, ← List.replicate_add, List.length_replicate]
      · rw [Function.update_of_ne hne]
        exact h.aired i

/-- **One step.** It does to the link what it does to one that loses nothing, or the same assertion of the
    feeder fails. -/
theorem step_spec (h : s.Inv gf) {b : LinkAction} (hb : a.lossless = .ok b) (hc : s.Correctable gf on a) :
    (s.step gf on a = .error (.link .feeder) ∧ s.link.step b = .error .feeder) ∨
      ∃ s', s.step gf on a = .ok s' ∧ s.link.step b = .ok s'.link ∧ s'.Inv gf := by
  cases a with
  | send interface u =>
    obtain rfl := Except.ok.inj hb
    exact call_spec h trivial fun k hk => aired_of_send hk
  | TurnOnLinkFailFlag =>
    obtain rfl := Except.ok.inj hb
    refine call_spec (b := .TurnOnLinkFailFlag) h trivial fun k hk => ?_
    obtain rfl := Except.ok.inj hk
    rfl
  | TurnOffLinkFailFlag =>
    obtain rfl := Except.ok.inj hb
    refine call_spec (b := .TurnOffLinkFailFlag) h trivial fun k hk => ?_
    obtain rfl := Except.ok.inj hk
    rfl
  | tx pls passage =>
    change pls.coding_type.map (fun ct => LinkAction.tx ct true) = .ok b at hb
    cases hct : pls.coding_type with
    | error e =>
      rw [hct] at hb
      cases hb
    | ok ct =>
      rw [hct] at hb
      obtain rfl := Except.ok.inj hb
      unfold step Link.step
      dsimp only
      rw [hct]
      dsimp only
      cases hslice : s.link.feeder._merger_slicer ct with
      | error e =>
        obtain rfl := merger_slicer_error hslice
        exact .inl ⟨rfl, rfl⟩
      | ok sliced =>
        obtain ⟨_ | f, feeder⟩ := sliced
        · obtain rfl := merger_slicer_none hslice
          exact .inr ⟨_, rfl, rfl, h⟩
        · obtain ⟨s', hs', hlink, hinv⟩ := transmit_spec h hct hslice hc
          exact .inr ⟨s', hs', hlink, hinv⟩

/-- A run is one of a link that loses nothing. -/
theorem exec_lossless {as : List FecLinkAction} {bs : List LinkAction} {t : FecLink F} (h : s.Inv gf)
    (hbs : as.mapM FecLinkAction.lossless = .ok bs)
    (hc : Run.Along (step gf on) (Correctable gf on) s as) (ht : Run.exec (step gf on) s as = .ok t) :
    Run.exec Link.step s.link bs = .ok t.link := by
  induction as generalizing s bs with
  | nil =>
    obtain rfl := Except.ok.inj ht
    obtain rfl := Except.ok.inj hbs
    rfl
  | cons a as ih =>
    rw [List.mapM_cons] at hbs
    cases hb : a.lossless with
    | error e =>
      rw [hb] at hbs
      cases hbs
    | ok b =>
      cases hrest : as.mapM FecLinkAction.lossless with
      | error e =>
        rw [hb, hrest] at hbs
        cases hbs
      | ok bs' =>
        rw [hb, hrest] at hbs
        obtain rfl := Except.ok.inj hbs
        unfold Run.exec at ht ⊢
        obtain ⟨he, -⟩ | ⟨s', hs', hlink, hinv⟩ := step_spec h hb hc.1
        · rw [he] at ht
          cases ht
        · rw [hs'] at ht
          rw [hlink]
          exact ih hinv hrest (hc.2 s' hs') ht

theorem Inv.keep (h : s.Inv gf) (ha : ∃ b, a.lossless = .ok b) (hc : s.Correctable gf on a) {s' : FecLink F}
    (hs : s.step gf on a = .ok s') : s'.Inv gf := by
  obtain ⟨b, hb⟩ := ha
  obtain ⟨he, -⟩ | ⟨s'', hs'', -, hinv⟩ := step_spec h hb hc
  · rw [he] at hs
    cases hs
  · obtain rfl := Except.ok.inj (hs''.symm.trans hs)
    exact hinv

/-- **Every run.** Packets and frames of all codes in any order, channel coding on or off: while the errors
    of the frames can be corrected, every packet that has left the feeder is delivered, no assertion but
    those of the feeder fails, and the link ends as one that loses nothing. -/
theorem run_carries (gf : (mode : BchMode) → GaloisField mode.m mode.prim_poly (F mode)) (on : Bool)
    (n : UInt8) (size : ℕ) (junk : ℕ → Byte) (as : List FecLinkAction)
    (has : ∀ a ∈ as, ∃ b, a.lossless = .ok b)
    (hc : Run.Along (step gf on) (Correctable gf on) (init n size junk) as) :
    Run.Always (step gf on) Carries (init n size junk) as ∧
      (∀ e, Run.exec (step gf on) (init n size junk) as = .error e → e = .link .feeder) ∧
      ∀ bs t, as.mapM FecLinkAction.lossless = .ok bs → Run.exec (step gf on) (init n size junk) as = .ok t →
        Run.exec Link.step (.init n size junk) bs = .ok t.link := by
  have hall := (Run.Along.of_forall has (init n size junk : FecLink F)).and hc
  have hinit : (init n size junk : FecLink F).Inv gf := init_inv n size junk
  have hkeep : ∀ (s : FecLink F) a s', s.Inv gf → ((∃ b, a.lossless = .ok b) ∧ s.Correctable gf on a) →
      s.step gf on a = .ok s' → s'.Inv gf := fun s a s' hs hca hstep => hs.keep hca.1 hca.2 hstep
  refine ⟨(Run.Always.of_along hkeep hinit hall).mono fun _ => Inv.carries, fun e he => ?_,
    fun bs t hbs ht => exec_lossless hinit hbs hc ht⟩
  by_contra hne
  refine Run.exec_ne_error_of_along hkeep (fun s a hs hca hstep => ?_) hinit hall he
  obtain ⟨⟨b, hb⟩, hcorr⟩ := hca
  obtain ⟨he', -⟩ | ⟨s'', hs'', -, -⟩ := step_spec hs hb hcorr
  · exact hne (Except.error.inj (hstep.symm.trans he'))
  · rw [hs''] at hstep
    cases hstep

/-- Without errors on the way there is nothing to correct. -/
theorem Inv.correctable (h : s.Inv gf) (hclean : Clean on a) : s.Correctable gf on a := by
  cases a with
  | tx pls passage =>
    intro ct f feeder systems r hct hslice hr
    obtain ⟨id, m, hf⟩ := merger_slicer_spec h.link.next (fun id => (h.link.streams id).input) hslice
    obtain ⟨systems', r', hr', -, hrecovers⟩ := h.systems.transmit on (fits_transmission hf hct)
    obtain ⟨-, rfl⟩ := Prod.mk.inj (Except.ok.inj (hr'.symm.trans hr))
    have hnone : differing ct.bchCoded r'.sent r'.sent = [] :=
      List.filter_eq_nil_iff.2 fun i _ => by simp
    rw [hrecovers.clean hclean, hnone]
    exact Nat.zero_le _
  | _ => trivial

theorem along_correctable (n : UInt8) (size : ℕ) (junk : ℕ → Byte) {as : List FecLinkAction}
    (has : ∀ a ∈ as, (∃ b, a.lossless = .ok b) ∧ Clean on a) :
    Run.Along (step gf on) (Correctable gf on) (init n size junk) as :=
  Run.Along.of_inv (fun _ _ _ hs hca hstep => hs.keep hca.1 (hs.correctable hca.2) hstep)
    (fun _ _ hs hca => hs.correctable hca.2) (init_inv n size junk) (Run.Along.of_forall has _)

/-- Two packets in frames of two codes. -/
def twoCodes : List FecLinkAction :=
  let passage : Passage := ⟨fun _ => 0x55, [], fun _ => (true, fun _ => false)⟩
  [.send 0 zeroPacket, .tx ⟨.MODCOD_QPSK_1_4, .FECFRAME_SHORT⟩ passage, .send 0 zeroPacket,
    .tx ⟨.MODCOD_16APSK_2_3, .FECFRAME_NORMAL⟩ passage]

theorem twoCodes_clean : ∀ a ∈ twoCodes, (∃ b, a.lossless = .ok b) ∧ Clean true a := by
  unfold twoCodes
  simp only [List.forall_mem_cons]
  exact ⟨⟨⟨_, rfl⟩, trivial⟩, ⟨⟨_, rfl⟩, .inr rfl⟩, ⟨⟨_, rfl⟩, trivial⟩, ⟨⟨_, rfl⟩, .inr rfl⟩, fun _ h => by cases h⟩

/-- Packets that cross two frames of different codes. -/
theorem run_carries_twoCodes :
    ∃ (gf : (mode : BchMode) → GaloisField mode.m mode.prim_poly (BinaryField.Gf mode.m))
      (_ : (mode : BchMode) → DecidableEq (BinaryField.Gf mode.m)),
      Run.Always (step gf true) Carries (init 1 2000 fun _ => 0) twoCodes ∧
        (∀ e, Run.exec (step gf true) (init 1 2000 fun _ => 0) twoCodes = .error e → e = .link .feeder) ∧
        ∀ bs t, twoCodes.mapM FecLinkAction.lossless = .ok bs →
          Run.exec (step gf true) (init 1 2000 fun _ => 0) twoCodes = .ok t →
          Run.exec Link.step (.init 1 2000 fun _ => 0) bs = .ok t.link := by
  classical
  refine ⟨fun mode => (BchMode.exists_field mode).some, fun mode => inferInstance, ?_⟩
  exact run_carries _ true 1 2000 (fun _ => 0) twoCodes (fun a ha => (twoCodes_clean a ha).1)
    (along_correctable 1 2000 (fun _ => 0) twoCodes_clean)

end FecLink

end Dvb
