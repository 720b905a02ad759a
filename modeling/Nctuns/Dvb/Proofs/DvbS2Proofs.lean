import Nctuns.Dvb.DvbS2

/-!
# Proofs about DVB-S.2 framing

A stream is read by the number `n` of bytes of it that left the feeder: packet `n / 188` is the one
being cut, and its first `n % 188` bytes are in the receiver's buffer unless a frame was lost.
-/

namespace Dvb

open Memory Blocks

/-! ### Packets -/

/-- What `_mode_adaptation` puts into the input buffer for a packet. -/
def streamBytes (p : UserPacket) : List Byte :=
  p.bytes.drop 1 ++ [_crc_8 (p.bytes.drop 1) DVB_CRC8_GEN_POLY]

/-- The bytes of packets, one behind the other. -/
def stream (ps : List UserPacket) : List Byte := ps.flatMap streamBytes

variable {p : UserPacket} {ps qs : List UserPacket} {b : StreamBuffer} {l part : List Byte}
  {z : Nat → Byte} {id : UInt8}

theorem length_drop_one (p : UserPacket) : (p.bytes.drop 1).length = 187 := by
  rw [List.length_drop, p.len]; rfl

theorem length_streamBytes (p : UserPacket) : (streamBytes p).length = 188 := by
  rw [streamBytes, List.length_append, length_drop_one]; rfl

/-- Behind a packet is its checksum. -/
theorem streamBytes_last (p : UserPacket) (l : List Byte) :
    (streamBytes p ++ l)[187]? = some (_crc_8 (p.bytes.drop 1) DVB_CRC8_GEN_POLY) := by
  rw [streamBytes, List.append_assoc, List.getElem?_append_right (by rw [length_drop_one]),
    length_drop_one]
  rfl

theorem length_stream (ps : List UserPacket) : (stream ps).length = 188 * ps.length :=
  length_flatMap length_streamBytes ps

theorem stream_append : stream (ps ++ qs) = stream ps ++ stream qs := List.flatMap_append

theorem stream_cons : stream (p :: ps) = streamBytes p ++ stream ps := List.flatMap_cons

/-- The bytes behind some packets. -/
theorem stream_drop (ps : List UserPacket) (q r : Nat) :
    (stream ps).drop (188 * q + r) = (stream (ps.drop q)).drop r := by
  rcases Nat.le_total q ps.length with h | h
  · have hlen : (stream (ps.take q)).length = 188 * q := by
      rw [length_stream, List.length_take, Nat.min_eq_left h]
    conv_lhs => rw [← List.take_append_drop q ps, stream_append]
    rw [← List.drop_drop, List.drop_left' hlen]
  · have hlen : (stream ps).length ≤ 188 * q + r := by
      rw [length_stream]
      exact Nat.le_trans (Nat.mul_le_mul_left _ h) (Nat.le_add_right _ _)
    rw [List.drop_of_length_le hlen, List.drop_of_length_le h]
    exact List.drop_nil.symm

/-- The CRC in front of the packet, as the receiver checks it. -/
theorem recv_packet (p : UserPacket) :
    Rcst._recv_user_packet (_crc_8 (p.bytes.drop 1) DVB_CRC8_GEN_POLY :: p.bytes.drop 1) =
      [p.bytes] := by
  have hbytes : SYNC_MPEG2_TS :: p.bytes.drop 1 = p.bytes := by
    rw [List.drop_one]
    exact List.cons_head?_tail p.sync
  show (if _ then [] else [_]) = _
  rw [if_neg (by simp)]
  exact congrArg (fun l => [l]) hbytes

/-! ### The receiver -/

/-- One packet is cut off. -/
theorem slices_succ {data_field : Nat → Byte} {len fuel i : Nat} (h : i + 188 ≤ len) :
    Rcst.slices data_field len (fuel + 1) i =
      (Rcst._recv_user_packet (data_field (i + 187) :: read (fun k => data_field (i + k)) 187) ++
        (Rcst.slices data_field len fuel (i + 188)).1,
        (Rcst.slices data_field len fuel (i + 188)).2) :=
  if_pos h

/-- The packets that lie in the frame whole. -/
theorem slices_spec (fuel : Nat) (pre : List Byte) (ps : List UserPacket) (k : Nat)
    (hk : k ≤ 188 * ps.length) (hf : k ≤ fuel) :
    Rcst.slices (ofList (pre ++ (stream ps).take k) z) (pre.length + k) fuel pre.length =
      ((ps.take (k / 188)).map UserPacket.bytes,
        pre.length + 188 * (k / 188)) := by
  induction fuel generalizing pre ps k with
  | zero =>
    obtain rfl : k = 0 := Nat.le_zero.1 hf
    rfl
  | succ fuel ih =>
    rcases Nat.lt_or_ge k 188 with hlt | hge
    · rw [Nat.div_eq_of_lt hlt]
      exact if_neg (by show ¬ pre.length + 188 ≤ _; omega)
    · obtain _ | ⟨p, ps⟩ := ps
      · simp at hk; omega
      have hlen := length_streamBytes p
      have hcut : (stream (p :: ps)).take k = streamBytes p ++ (stream ps).take (k - 188) := by
        rw [stream_cons, List.take_append, hlen, List.take_of_length_le (by omega)]
      have hpre : pre ++ (stream (p :: ps)).take k =
          (pre ++ streamBytes p) ++ (stream ps).take (k - 188) := by
        rw [hcut, List.append_assoc]
      have hmem : pre.length + 188 ≤ (pre ++ (stream (p :: ps)).take k).length := by
        rw [hpre, List.length_append, List.length_append, hlen]; omega
      have hbytes : (pre ++ (stream (p :: ps)).take k).drop pre.length =
          streamBytes p ++ (stream ps).take (k - 188) := by
        rw [List.drop_left, hcut]
      have hdata : read (fun j => ofList (pre ++ (stream (p :: ps)).take k) z (pre.length + j))
          (187) = p.bytes.drop 1 := by
        rw [read_ofList (by omega), hbytes, streamBytes, List.append_assoc]
        exact List.take_left' (length_drop_one p)
      have hcrc : ofList (pre ++ (stream (p :: ps)).take k) z (pre.length + 187) =
          _crc_8 (p.bytes.drop 1) DVB_CRC8_GEN_POLY := by
        rw [ofList_of_lt (by omega)]
        refine Option.some.inj ?_
        rw [← List.getElem?_eq_getElem, ← List.getElem?_drop, hbytes, streamBytes_last]
      have ih := ih (pre ++ streamBytes p) ps (k - 188)
        (by rw [List.length_cons] at hk; omega) (by omega)
      rw [← hpre, List.length_append, hlen,
        show pre.length + 188 + (k - 188) = pre.length + k by omega] at ih
      rw [slices_succ (by omega), hcrc, hdata, ih, recv_packet, Nat.div_eq_sub_div (by omega) hge, List.take_succ_cons, List.map_cons]
      refine Prod.ext rfl ?_
      show pre.length + 188 + 188 * _ = _
      rw [Nat.mul_succ]; omega

/-- A packet whose beginning is in the buffer. -/
theorem recompose_intact {xs : List Byte} {syncd : Nat} (hb : b.Contains part)
    (hsize : b._size = 188) (hlen : part.length + syncd / 8 = 187)
    (hxs : syncd / 8 + 1 ≤ xs.length) (hp : part ++ xs.take (syncd / 8 + 1) = streamBytes p) :
    ∃ b', Rcst.recompose b (ofList xs z) syncd = .ok ([p.bytes], b') ∧ b'.Contains [] ∧
      b'._size = 188 := by
  have hread : read (ofList xs z) (syncd / 8 + 1) = xs.take (syncd / 8 + 1) := read_ofList_take hxs
  have hput := hb.put (d := xs.take (syncd / 8 + 1)) (by rw [hsize, List.length_take]; omega)
  rw [hp, hsize] at hput
  obtain ⟨hget, hrest, hsize1⟩ := hput.1.get (187)
  obtain ⟨hget', hrest', hsize2⟩ := hrest.get 1
  rw [streamBytes, List.take_left' (length_drop_one p)] at hget
  rw [streamBytes, List.drop_left' (length_drop_one p)] at hget' hrest'
  refine ⟨_, ?_, hrest', hsize2.trans (hsize1.trans hput.2)⟩
  refine (if_pos (by rw [hb.content_len]; exact hlen)).trans ?_
  rw [hread]
  refine (if_neg (not_not.2 hrest'.content_len)).trans ?_
  rw [show MPEG2_TS_LEN - 1 = 187 from rfl, hget', hget]
  exact congrArg (fun l => Except.ok (l, _)) (recv_packet p)

/-- A part that does not complete the packet in the buffer. -/
theorem recompose_skip {xs : List Byte} {syncd : Nat} (hb : b.Contains part)
    (hlen : part.length + syncd / 8 ≠ 187) :
    Rcst.recompose b (ofList xs z) syncd = .ok ([], b) := by
  exact if_neg (by rw [hb.content_len]; exact hlen)

/-! ### The feeder -/

variable {d d' : Feeder} {n : Nat} {interface : UInt8} {ct : CodingType} {f : BaseBandFrame}

/-- A stream with bytes in its buffer. -/
theorem waiting_spec (hi : interface < d._number_of_input_stream)
    (h : d.waiting n interface = some id) :
    (d._input_buffer id).content_len ≠ 0 ∧ id < d._number_of_input_stream := by
  induction n generalizing interface with
  | zero => exact absurd h (by simp [Feeder.waiting])
  | succ n ih =>
    unfold Feeder.waiting at h
    split_ifs at h with hc
    · obtain rfl := Option.some.inj h
      exact ⟨hc, hi⟩
    · exact ih (UInt8.mod_lt _ (UInt8.lt_of_le_of_lt UInt8.zero_le hi)) h

/-- A frame has room for at least one packet. -/
theorem bchUncoded_bounds (ct : CodingType) :
    198 ≤ ct.bchUncoded / 8 - header_size ∧ ct.bchUncoded / 8 - header_size ≤ 7264 := by
  cases ct <;> decide

/-- The frame `f` carries the first `m` bytes of `l`, the contents of the buffer of `id`. -/
structure Sliced (d : Feeder) (ct : CodingType) (f : BaseBandFrame) (d' : Feeder) (id : UInt8)
    (l : List Byte) (m : Nat) : Prop where
  contains : (d._input_buffer id).Contains l
  stream : id < d._number_of_input_stream
  amount : m = min (ct.bchUncoded / 8 - header_size) l.length
  pos : 0 < m
  stream_id : f.header._input_stream_id = id
  crc : f.header._crc_8 = _crc_8 f.header.bytes DVB_CRC8_GEN_POLY
  length : f.header._data_field_length.toNat / 8 = m
  syncd : f.header._syncd.toNat / 8 = (l.length - 1) % 188
  data : f.data_field = ofList (l.take m) fun _ => 0
  number : d'._number_of_input_stream = d._number_of_input_stream
  next : d'._next_input_stream < d._number_of_input_stream
  rest : (d'._input_buffer id).Contains (l.drop m)
  others : ∀ i, i ≠ id → d'._input_buffer i = d._input_buffer i

/-- No frame, and nothing changes. -/
theorem merger_slicer_none (h : d._merger_slicer ct = .ok (none, d')) : d' = d := by
  unfold Feeder._merger_slicer at h
  split at h
  · exact (Prod.mk.inj (Except.ok.inj h)).2.symm
  · dsimp only at h
    split_ifs at h
    exact absurd (Prod.mk.inj (Except.ok.inj h)).1 (by simp)

/-- **A frame** is cut off one of the streams. -/
theorem merger_slicer_spec {content : UInt8 → List Byte}
    (hnext : 0 < d._number_of_input_stream → d._next_input_stream < d._number_of_input_stream)
    (hbuf : ∀ id, (d._input_buffer id).Contains (content id))
    (h : d._merger_slicer ct = .ok (some f, d')) : ∃ id m, Sliced d ct f d' id (content id) m := by
  unfold Feeder._merger_slicer at h
  split at h
  · exact absurd h (by simp)
  · rename_i id hw
    have hN : 0 < d._number_of_input_stream := by
      by_contra h0
      have hz : d._number_of_input_stream = 0 := UInt8.le_zero_iff.1 (UInt8.not_lt.1 h0)
      rw [hz] at hw
      exact absurd hw (by simp [Feeder.waiting])
    obtain ⟨hc, hid⟩ := waiting_spec (hnext hN) hw
    obtain ⟨l, hcontent⟩ : ∃ l, l = content id := ⟨_, rfl⟩
    have hl := hbuf id
    rw [← hcontent] at hl
    obtain ⟨hget, hrest, -⟩ := hl.get (ct.bchUncoded / 8 - header_size)
    obtain ⟨hlo, hhi⟩ := bchUncoded_bounds ct
    rw [hl.content_len] at hc
    have hlen : (l.take (ct.bchUncoded / 8 - header_size)).length =
        min (ct.bchUncoded / 8 - header_size) l.length := List.length_take
    dsimp only at h
    rw [hget, hl.content_len, hlen] at h
    split_ifs at h with hdfl
    obtain ⟨hf, hd⟩ := Prod.mk.inj (Except.ok.inj h)
    obtain rfl := Option.some.inj hf
    subst hd
    refine ⟨id, min (ct.bchUncoded / 8 - header_size) l.length, ?_⟩
    rw [← hcontent]
    exact {
      contains := hl
      stream := hid
      amount := rfl
      pos := by omega
      stream_id := rfl
      crc := rfl
      length := by
        show (UInt16.ofNat _).toNat / 8 = _
        rw [UInt16.toNat_ofNat_of_lt' (by show _ < 65536; omega), Nat.mul_div_cancel _ (by decide)]
      syncd := by
        show (UInt16.ofNat ((l.length - 1) % 188 * 8)).toNat / 8 = _
        rw [UInt16.toNat_ofNat_of_lt' (by show _ < 65536; omega), Nat.mul_div_cancel _ (by decide)]
      data := by rw [← List.take_eq_take_min]
      number := rfl
      next := UInt8.mod_lt _ hN
      rest := by
        dsimp only
        rw [Function.update_self, ← List.drop_eq_drop_min]
        exact hrest
      others := fun i hi => Function.update_of_ne hi _ _ }

/-! ### A frame at the receiver -/

/-- The buffer of the receiver holds the beginning of the packet that the feeder is cutting after
    `n` bytes, all of it from frames that were received. -/
structure Intact (ps : List UserPacket) (flags : List Bool) (part : List Byte) : Prop where
  bytes : part = ((stream ps).drop (188 * (flags.length / 188))).take (flags.length % 188)
  flags : flags.drop (188 * (flags.length / 188)) = List.replicate (flags.length % 188) true

/-- The packet that the feeder is cutting, the ones behind it, and what is left of them. -/
theorem stream_cut {n : Nat} (hn : n < 188 * ps.length) :
    ∃ p qs, ps.drop (n / 188) = p :: qs ∧
      (stream ps).drop n = (streamBytes p).drop (n % 188) ++ stream qs ∧
      ((stream ps).drop (188 * (n / 188))).take (n % 188) = (streamBytes p).take (n % 188) := by
  obtain ⟨p, qs, hpq⟩ : ∃ p qs, ps.drop (n / 188) = p :: qs := by
    rcases h : ps.drop (n / 188) with _ | ⟨p, qs⟩
    · have := List.drop_eq_nil_iff.1 h; omega
    · exact ⟨p, qs, rfl⟩
  have hr : n % 188 ≤ (streamBytes p).length := by rw [length_streamBytes]; omega
  refine ⟨p, qs, hpq, ?_, ?_⟩
  · have h := stream_drop ps (n / 188) (n % 188)
    rw [show 188 * (n / 188) + n % 188 = n by omega, hpq, stream_cons,
      List.drop_append_of_le_length hr] at h
    exact h
  · have h := stream_drop ps (n / 188) 0
    rw [Nat.add_zero, List.drop_zero, hpq, stream_cons] at h
    rw [h, List.take_append_of_le_length hr]

/-- The covered packets when one more frame was received. -/
theorem marked_received {flags : List Bool} {m : Nat} (hn : flags.length < 188 * ps.length)
    (hm : 188 ≤ flags.length % 188 + m) (hpq : ps.drop (flags.length / 188) = p :: qs) :
    marked 188 ps (flags ++ List.replicate m true) = marked 188 ps flags ++
      ((if flags.drop (188 * (flags.length / 188)) = List.replicate (flags.length % 188) true then [p]
        else []) ++ qs.take ((flags.length % 188 + m - 188) / 188)) := by
  have hps : ps = ps.take (flags.length / 188) ++ p :: qs := by rw [← hpq, List.take_append_drop]
  have hA : (flags.take (188 * (flags.length / 188))).length =
      188 * (ps.take (flags.length / 188)).length := by
    rw [List.length_take, List.length_take]; omega
  have hR : (flags.drop (188 * (flags.length / 188))).length = flags.length % 188 := by
    rw [List.length_drop]; omega
  have hcut := List.take_append_drop (188 * (flags.length / 188)) flags
  have hRlt : (flags.drop (188 * (flags.length / 188))).length < 188 := by omega
  have hold : marked 188 ps flags =
      marked 188 (ps.take (flags.length / 188)) (flags.take (188 * (flags.length / 188))) := by
    have h := marked_append (w := p :: qs) (l := flags.drop (188 * (flags.length / 188))) hA
    rwa [← hps, hcut, marked_short hRlt, List.append_nil] at h
  have hnew := marked_append (w := p :: qs)
    (l := flags.drop (188 * (flags.length / 188)) ++ List.replicate m true) hA
  rw [← hps, ← List.append_assoc, hcut] at hnew
  rw [hnew, hold, marked_append_true hRlt (by rw [hR]; exact hm), hR]

/-- The first packet of a frame. -/
theorem recompose_spec {flags : List Bool} {xs : List Byte} {syncd : Nat}
    (hpq : ps.drop (flags.length / 188) = p :: qs) (hb : b.Contains part)
    (hsize : b._size = 188)
    (hpart : Intact ps flags part ∨ part = [] ∧ flags.getLast? = some false)
    (hn : flags.length < 188 * ps.length) (hsyncd : syncd / 8 = 187 - flags.length % 188)
    (hlen : 188 ≤ flags.length % 188 + xs.length)
    (hxs : xs.take (188 - flags.length % 188) = (streamBytes p).drop (flags.length % 188)) :
    ∃ b', Rcst.recompose b (ofList xs z) syncd =
        .ok ((if flags.drop (188 * (flags.length / 188)) = List.replicate (flags.length % 188) true
          then [p] else []).map UserPacket.bytes, b') ∧ b'.Contains [] ∧ b'._size = 188 := by
  have hrlt : flags.length % 188 < 188 := Nat.mod_lt _ (by decide)
  have hcut : flags.length = 188 * (flags.length / 188) + flags.length % 188 := by omega
  rcases hpart with hpart | ⟨rfl, hlast⟩
  · obtain ⟨p', qs', hpq', -, hbytes⟩ := stream_cut hn
    obtain ⟨rfl, rfl⟩ : p' = p ∧ qs' = qs := by simpa using hpq'.symm.trans hpq
    have hp := hpart.bytes.trans hbytes
    have hplen : part.length = flags.length % 188 := by
      rw [hp, List.length_take, length_streamBytes]; omega
    rw [if_pos hpart.flags]
    refine recompose_intact hb hsize (by omega) (by omega) ?_
    rw [show syncd / 8 + 1 = 188 - flags.length % 188 by omega, hxs, hp, List.take_append_drop]
  · rcases Nat.eq_zero_or_pos (flags.length % 188) with hr | hr
    · -- the lost frame ended with a packet
      rw [hr] at hxs hsyncd hlen ⊢
      have hnil : flags.drop (188 * (flags.length / 188)) = List.replicate 0 true :=
        List.drop_of_length_le (by omega)
      rw [if_pos hnil]
      refine recompose_intact hb hsize ?_ (by omega) ?_
      · rw [hsyncd]; rfl
      · rw [show syncd / 8 + 1 = 188 - 0 by omega, hxs]; rfl
    · have hne : flags.drop (188 * (flags.length / 188)) ≠
          List.replicate (flags.length % 188) true := fun h => by
        have hl := congrArg List.getLast? h
        rw [List.getLast?_drop, if_neg (by omega), hlast, List.getLast?_replicate,
          if_neg (by omega)] at hl
        exact absurd hl (by decide)
      rw [if_neg hne]
      refine ⟨b, recompose_skip hb ?_, hb, hsize⟩
      show 0 + _ ≠ 187
      omega

/-- **A frame received.** -/
theorem demultiplexer_spec {r : Rcst} {flags : List Bool} {m : Nat}
    (hcrc : f.header._crc_8 = _crc_8 f.header.bytes DVB_CRC8_GEN_POLY)
    (hid : f.header._input_stream_id < r._number_of_input_stream)
    (hb : (r._incomplete_up_buf f.header._input_stream_id).Contains part)
    (hsize : (r._incomplete_up_buf f.header._input_stream_id)._size = 188)
    (hpart : Intact ps flags part ∨ part = [] ∧ flags.getLast? = some false)
    (hn : flags.length < 188 * ps.length) (hm : 188 ≤ flags.length % 188 + m)
    (hmax : flags.length + m ≤ 188 * ps.length)
    (hsyncd : f.header._syncd.toNat / 8 = 187 - flags.length % 188)
    (hlen : f.header._data_field_length.toNat / 8 = m)
    (hdata : f.data_field = ofList (((stream ps).drop flags.length).take m) fun _ => 0) :
    ∃ ups b part', r._demultiplexer f = .ok ({ r with
        _incomplete_up_buf := Function.update r._incomplete_up_buf f.header._input_stream_id b },
        ups) ∧
      (marked 188 ps (flags ++ List.replicate m true)).map UserPacket.bytes =
        (marked 188 ps flags).map UserPacket.bytes ++ ups ∧
      b.Contains part' ∧ b._size = 188 ∧ Intact ps (flags ++ List.replicate m true) part' := by
  obtain ⟨p, qs, hpq, hdrop, -⟩ := stream_cut hn
  have hrlt : flags.length % 188 < 188 := Nat.mod_lt _ (by decide)
  have hcut : flags.length = 188 * (flags.length / 188) + flags.length % 188 := by omega
  have hqs : ps.length = flags.length / 188 + 1 + qs.length := by
    have h := congrArg List.length hpq
    rw [List.length_drop, List.length_cons] at h
    omega
  have hpre : ((streamBytes p).drop (flags.length % 188)).length = 188 - flags.length % 188 := by
    rw [List.length_drop, length_streamBytes]
  have hxs : ((stream ps).drop flags.length).take m = (streamBytes p).drop (flags.length % 188) ++
      (stream qs).take (m - (188 - flags.length % 188)) := by
    rw [hdrop, List.take_append, hpre, List.take_of_length_le (by omega)]
  have hxlen : (((stream ps).drop flags.length).take m).length = m := by
    rw [List.length_take, List.length_drop, length_stream]; omega
  obtain ⟨b1, hrec, hb1, hsize1⟩ := recompose_spec (z := fun _ => 0) hpq hb hsize hpart hn hsyncd
    (by rw [hxlen]; exact hm) (by rw [hxs]; exact List.take_left' hpre)
  have hslices := slices_spec (z := fun _ => 0) m ((streamBytes p).drop (flags.length % 188)) qs
    (m - (188 - flags.length % 188)) (by omega) (by omega)
  rw [← hxs, hpre, show 188 - flags.length % 188 + (m - (188 - flags.length % 188)) = m by omega]
    at hslices
  -- what is behind the last whole packet
  have hrest : read (fun j => ofList (((stream ps).drop flags.length).take m) (fun _ => 0)
      (188 - flags.length % 188 + 188 * ((m - (188 - flags.length % 188)) / 188) + j))
      (m - (188 - flags.length % 188 + 188 * ((m - (188 - flags.length % 188)) / 188))) =
      ((stream ps).drop (188 * ((flags.length + m) / 188))).take ((flags.length + m) % 188) := by
    rw [read_ofList (by omega), List.drop_take, List.drop_drop, List.take_take]
    congr 1
    · omega
    · congr 1; omega
  have hput := hb1.put (d := ((stream ps).drop (188 * ((flags.length + m) / 188))).take
    ((flags.length + m) % 188)) (by rw [hsize1, List.length_take]; simp; omega)
  refine ⟨_, _, _, ?_, by rw [marked_received hn hm hpq, List.map_append], hput.1,
    hput.2.trans hsize1, ?_, ?_⟩
  rotate_left 1
  · rw [List.nil_append, List.length_append, List.length_replicate]
  · rw [List.length_append, List.length_replicate, List.drop_append, List.drop_of_length_le (by omega),
      List.drop_replicate, List.nil_append]
    congr 1; omega
  · unfold Rcst._demultiplexer
    rw [if_neg (not_not.2 hcrc), if_neg (UInt8.not_le.2 hid)]
    dsimp only
    rw [hdata, hrec]
    dsimp only
    rw [hlen, show f.header._syncd.toNat / 8 + 1 = 188 - flags.length % 188 by omega, hslices]
    dsimp only
    rw [hrest, show (flags.length % 188 + m - 188) / 188 =
      (m - (188 - flags.length % 188)) / 188 by omega, List.map_append]

/-! ### Runs -/

/-- One stream: its input buffer, its buffer at the receiver, and its three lists. -/
structure StreamInv (input incomplete : StreamBuffer) (sent : List UserPacket) (aired : List Bool)
    (delivered : List (List Byte)) : Prop where
  input : input.Contains ((stream sent).drop aired.length)
  length : aired.length ≤ 188 * sent.length
  delivered : delivered = (marked 188 sent aired).map UserPacket.bytes
  size : incomplete._size = 188
  incomplete : ∃ part, incomplete.Contains part ∧
    (Intact sent aired part ∨ aired.getLast? = some false)

/-- What holds on every stream of the link. -/
structure LinkInv (l : Link) : Prop where
  number : l.rcst._number_of_input_stream = l.feeder._number_of_input_stream
  next : 0 < l.feeder._number_of_input_stream →
    l.feeder._next_input_stream < l.feeder._number_of_input_stream
  streams : ∀ id, StreamInv (l.feeder._input_buffer id) (l.rcst._incomplete_up_buf id) (l.sent id)
    (l.aired id) (l.delivered id)

variable {k k' : Link} {a : LinkAction}

/-- The invariant gives the deliveries. -/
theorem LinkInv.delivers (h : LinkInv k) : k.Delivers := fun id => by
  have hd := (h.streams id).delivered
  rw [hd]
  exact ⟨(marked_sublist 188 _ _).map _, .refl _⟩

/-- Nothing has been sent. -/
theorem init_inv (n : UInt8) (size : Nat) (junk : Nat → Byte) : LinkInv (.init n size junk) where
  number := rfl
  next := id
  streams _ :=
    { input := StreamBuffer.new_contains size junk
      length := Nat.zero_le _
      delivered := rfl
      size := rfl
      incomplete := ⟨[], StreamBuffer.new_contains 188 junk, .inl ⟨rfl, by simp [Link.init]⟩⟩ }

/-- A packet goes into the input buffer whole, or not at all. -/
theorem mode_adaptation_spec {input : List Byte} (hb : (d._input_buffer interface).Contains input)
    (p : UserPacket) :
    d._mode_adaptation interface p.bytes = (d, -1) ∨
      ∃ b, b.Contains (input ++ streamBytes p) ∧ d._mode_adaptation interface p.bytes =
        ({ d with _input_buffer := Function.update d._input_buffer interface b }, 0) := by
  unfold Feeder._mode_adaptation
  split_ifs with hfree
  · exact .inl rfl
  · have hf := hb.free
    have hlen : p.bytes.length = 188 := p.len
    have h1 := hb.put (d := p.bytes.drop 1) (by rw [length_drop_one]; omega)
    have h2 := h1.1.put (d := [_crc_8 (p.bytes.drop 1) DVB_CRC8_GEN_POLY]) (by
      rw [h1.2, List.length_append, length_drop_one, List.length_singleton]; omega)
    rw [List.append_assoc] at h2
    exact .inr ⟨_, h2.1, rfl⟩

/-- A packet is sent. -/
theorem StreamInv.send {input incomplete b : StreamBuffer} {sent : List UserPacket}
    {aired : List Bool} {delivered : List (List Byte)}
    (h : StreamInv input incomplete sent aired delivered) (p : UserPacket)
    (hb : b.Contains ((stream sent).drop aired.length ++ streamBytes p)) :
    StreamInv b incomplete (sent ++ [p]) aired delivered where
  input := by
    have hle : aired.length ≤ (stream sent).length := by rw [length_stream]; exact h.length
    rw [stream_append, List.drop_append_of_le_length hle]
    simpa [stream] using hb
  length := by
    rw [List.length_append]
    exact Nat.le_trans h.length (Nat.mul_le_mul_left _ (Nat.le_add_right _ _))
  delivered := by rw [marked_append_items h.length (by decide)]; exact h.delivered
  size := h.size
  incomplete := by
    obtain ⟨part, hpart, hor⟩ := h.incomplete
    refine ⟨part, hpart, hor.imp_left fun hi => ⟨?_, hi.flags⟩⟩
    have hle : 188 * (aired.length / 188) ≤ (stream sent).length := by
      have := h.length
      rw [length_stream]; omega
    rw [stream_append, List.drop_append_of_le_length hle, List.take_append_of_le_length ?_]
    · exact hi.bytes
    · have := h.length
      rw [List.length_drop, length_stream]; omega

/-- A frame is lost. -/
theorem StreamInv.lost {input incomplete b : StreamBuffer} {sent : List UserPacket}
    {aired : List Bool} {delivered : List (List Byte)} {m : Nat}
    (h : StreamInv input incomplete sent aired delivered) (hm : 0 < m)
    (hle : m ≤ ((stream sent).drop aired.length).length)
    (hb : b.Contains (((stream sent).drop aired.length).drop m)) :
    StreamInv b incomplete sent (aired ++ List.replicate m false) delivered where
  input := by rw [List.length_append, List.length_replicate, ← List.drop_drop]; exact hb
  length := by
    rw [List.length_drop, length_stream] at hle
    rw [List.length_append, List.length_replicate]
    have := h.length
    omega
  delivered := by rw [marked_append_false (by decide)]; exact h.delivered
  size := h.size
  incomplete := by
    obtain ⟨part, hpart, -⟩ := h.incomplete
    refine ⟨part, hpart, .inr ?_⟩
    rw [List.getLast?_append, List.getLast?_replicate, if_neg (by omega)]
    rfl

/-- A packet is refused, or joins the buffer of its stream. -/
theorem send_spec {u input : List Byte} {o : Option UserPacket}
    (hb : (d._input_buffer interface).Contains input)
    (h : d.send interface u = .ok (d', o)) :
    o = none ∧ d' = d ∨
      ∃ p b, o = some p ∧ b.Contains (input ++ streamBytes p) ∧
        d' = { d with _input_buffer := Function.update d._input_buffer interface b } := by
  unfold Feeder.send at h
  dsimp only at h
  split_ifs at h with hfail hsync hlen hid hfull
  · obtain ⟨rfl, rfl⟩ := Prod.mk.inj (Except.ok.inj h)
    exact .inl ⟨rfl, rfl⟩
  all_goals
    obtain ⟨rfl, rfl⟩ := Prod.mk.inj (Except.ok.inj h)
    obtain heq | ⟨b, hb', heq⟩ := mode_adaptation_spec hb ⟨u, not_not.1 hsync, not_not.1 hlen⟩
  · exact .inl ⟨rfl, congrArg Prod.fst heq⟩
  · exact absurd hfull (by rw [show _ = (_, (0 : Int)) from heq]; exact Int.lt_irrefl 0)
  · exact absurd (show _ < (0 : Int) by rw [show _ = (_, (-1 : Int)) from heq]; exact (by decide : (-1 : Int) < 0)) hfull
  · exact .inr ⟨_, b, rfl, hb', congrArg Prod.fst heq⟩

/-- A frame is received. -/
theorem StreamInv.received {input b : StreamBuffer} {sent : List UserPacket} {aired : List Bool}
    {delivered : List (List Byte)} {r : Rcst} {m : Nat}
    (h : StreamInv input (r._incomplete_up_buf f.header._input_stream_id) sent aired delivered)
    (hcrc : f.header._crc_8 = _crc_8 f.header.bytes DVB_CRC8_GEN_POLY)
    (hid : f.header._input_stream_id < r._number_of_input_stream)
    (hsync : (r._incomplete_up_buf f.header._input_stream_id).content_len = 0 ∨
      aired.getLast? ≠ some false)
    (hm : min 198 ((stream sent).drop aired.length).length ≤ m)
    (hle : m ≤ ((stream sent).drop aired.length).length) (hpos : 0 < m)
    (hsyncd : f.header._syncd.toNat / 8 = (((stream sent).drop aired.length).length - 1) % 188)
    (hlen : f.header._data_field_length.toNat / 8 = m)
    (hdata : f.data_field = ofList (((stream sent).drop aired.length).take m) fun _ => 0)
    (hb : b.Contains (((stream sent).drop aired.length).drop m)) :
    ∃ ups b', r._demultiplexer f = .ok ({ r with
        _incomplete_up_buf := Function.update r._incomplete_up_buf f.header._input_stream_id b' },
        ups) ∧
      StreamInv b b' sent (aired ++ List.replicate m true) (delivered ++ ups) := by
  have hlength := h.length
  obtain ⟨part, hpart, hor⟩ := h.incomplete
  have hor' : Intact sent aired part ∨ part = [] ∧ aired.getLast? = some false := by
    refine hor.imp_right fun hlast => ⟨?_, hlast⟩
    rcases hsync with h0 | hne
    · rw [hpart.content_len] at h0
      exact List.length_eq_zero_iff.1 h0
    · exact absurd hlast hne
  rw [List.length_drop, length_stream] at hm hle hsyncd
  obtain ⟨ups, b', part', hdemux, hups, hb', hsize', hpart'⟩ := demultiplexer_spec hcrc hid hpart
    h.size hor' (by omega) (by omega) (by omega) (by omega) hlen hdata
  refine ⟨ups, b', hdemux, ?_, ?_, ?_, hsize', part', hb', .inl hpart'⟩
  · rw [List.length_append, List.length_replicate, ← List.drop_drop]; exact hb
  · rw [List.length_append, List.length_replicate]; omega
  · rw [h.delivered, hups]

/-- Only an assertion of the feeder can fail. -/
theorem send_error {u : List Byte} {e : Abort} (h : d.send interface u = .error e) :
    e = .feeder := by
  unfold Feeder.send at h
  dsimp only at h
  split_ifs at h
  all_goals exact (Except.error.inj h).symm

/-- Only an assertion of the feeder can fail. -/
theorem merger_slicer_error {e : Abort} (h : d._merger_slicer ct = .error e) : e = .feeder := by
  unfold Feeder._merger_slicer at h
  split at h
  · exact absurd h (by simp)
  · dsimp only at h
    split_ifs at h
    exact (Except.error.inj h).symm

/-- **A frame** is sent, and received or lost. -/
theorem transmit_spec (h : LinkInv k) {received : Bool}
    (hslice : k.feeder._merger_slicer ct = .ok (some f, d'))
    (hsync : received = true →
      (k.rcst._incomplete_up_buf f.header._input_stream_id).content_len = 0 ∨
        (k.aired f.header._input_stream_id).getLast? ≠ some false) :
    ∃ k', Link.transmit { k with feeder := d' } f received = .ok k' ∧ LinkInv k' := by
  obtain ⟨id, m, hf⟩ := merger_slicer_spec h.next (fun id => (h.streams id).input) hslice
  obtain rfl := hf.stream_id
  have hlo := (bchUncoded_bounds ct).1
  have hm := hf.amount
  unfold Link.transmit
  dsimp only
  rw [hf.length]
  cases received with
  | false =>
    refine ⟨_, rfl, h.number.trans hf.number.symm, fun _ => hf.number ▸ hf.next, fun i => ?_⟩
    rcases eq_or_ne i f.header._input_stream_id with rfl | hne
    · simpa using (h.streams _).lost hf.pos (by omega) hf.rest
    · simpa [hne, hf.others i hne] using h.streams i
  | true =>
    obtain ⟨ups, b, hdemux, hstream⟩ := (h.streams f.header._input_stream_id).received hf.crc
      (by rw [h.number]; exact hf.stream) (hsync rfl) (by omega) (by omega) hf.pos hf.syncd
      hf.length hf.data hf.rest
    rw [if_pos rfl, hdemux]
    refine ⟨_, rfl, h.number.trans hf.number.symm, fun _ => hf.number ▸ hf.next, fun i => ?_⟩
    rcases eq_or_ne i f.header._input_stream_id with rfl | hne
    · simpa using hstream
    · simpa [hne, hf.others i hne] using h.streams i

/-- **The invariant.** A step that finds the buffers in step. -/
theorem step_spec (h : LinkInv k) (hc : k.Resynced a) :
    k.step a = .error .feeder ∨ ∃ k', k.step a = .ok k' ∧ LinkInv k' := by
  cases a with
  | TurnOnLinkFailFlag => exact .inr ⟨_, rfl, h.number, h.next, h.streams⟩
  | TurnOffLinkFailFlag => exact .inr ⟨_, rfl, h.number, h.next, h.streams⟩
  | send interface u =>
    unfold Link.step
    dsimp only
    split
    · rename_i e hsend
      exact .inl (congrArg Except.error (send_error hsend))
    · rename_i d' hsend
      obtain ⟨-, rfl⟩ | ⟨p, b, hp, -⟩ := send_spec (h.streams interface).input hsend
      · exact .inr ⟨_, rfl, h⟩
      · exact absurd hp (by simp)
    · rename_i d' p hsend
      obtain ⟨hp, -⟩ | ⟨p', b, hp, hb, rfl⟩ := send_spec (h.streams interface).input hsend
      · exact absurd hp (by simp)
      · obtain rfl := Option.some.inj hp
        refine .inr ⟨_, rfl, h.number, h.next, fun id => ?_⟩
        rcases eq_or_ne id interface with rfl | hne
        · simpa using (h.streams id).send p hb
        · simpa [hne] using h.streams id
  | tx ct received =>
    unfold Link.step
    dsimp only
    split
    · rename_i e hslice
      exact .inl (congrArg Except.error (merger_slicer_error hslice))
    · rename_i d' hslice
      rw [merger_slicer_none hslice]
      exact .inr ⟨_, rfl, h⟩
    · rename_i f d' hslice
      refine .inr (transmit_spec h hslice fun hr => ?_)
      subst hr
      unfold Link.Resynced at hc
      dsimp only at hc
      rw [hslice] at hc
      exact hc

/-- **Resynchronisation.** As long as the receiver never gets a frame with stale bytes in its
    buffer, it delivers every covered packet, once and in order, and none of its assertions fails. -/
theorem run_delivers (n : UInt8) (size : Nat) (junk : Nat → Byte) (as : List LinkAction)
    (h : Run.Along Link.step Link.Resynced (.init n size junk) as) :
    Run.Always Link.step Link.Delivers (.init n size junk) as ∧
      Run.exec Link.step (.init n size junk) as ≠ .error .rcst := by
  have hstep : ∀ k a k', LinkInv k → k.Resynced a → k.step a = .ok k' → LinkInv k' := by
    intro k a k' hk hc hs
    obtain he | ⟨k'', hk'', hinv⟩ := step_spec hk hc
    · rw [he] at hs; exact absurd hs (by simp)
    · obtain rfl := Except.ok.inj (hk''.symm.trans hs)
      exact hinv
  constructor
  · exact (Run.Always.of_along hstep (init_inv n size junk) h).mono fun _ => LinkInv.delivers
  · refine Run.exec_ne_error_of_along hstep (fun k a hk hc hs => ?_) (init_inv n size junk) h
    obtain he | ⟨k'', hk'', -⟩ := step_spec hk hc
    · exact absurd (he.symm.trans hs) (by simp)
    · rw [hk''] at hs; exact absurd hs (by simp)

/-- The shortest packet: no payload but zeros. -/
def zeroPacket : List Byte := SYNC_MPEG2_TS :: List.replicate 187 0

set_option maxRecDepth 100000 in
/-- A lost packet, and a packet in two frames. -/
theorem run_delivers_cut :
    Run.Always Link.step Link.Delivers (.init 1 2000 fun _ => 0)
      [.send 0 zeroPacket, .tx .COD_SHORT_1_4 false, .send 0 zeroPacket, .send 0 zeroPacket,
        .tx .COD_SHORT_1_4 true, .tx .COD_SHORT_1_4 true] ∧
    Run.exec Link.step (.init 1 2000 fun _ => 0)
      [.send 0 zeroPacket, .tx .COD_SHORT_1_4 false, .send 0 zeroPacket, .send 0 zeroPacket,
        .tx .COD_SHORT_1_4 true, .tx .COD_SHORT_1_4 true] ≠ .error .rcst :=
  run_delivers 1 2000 (fun _ => 0) _ (by decide +kernel)

/-- Two packets in two frames, the second of them lost, and a packet in a frame of its own. -/
def staleRun : List LinkAction :=
  [.send 0 zeroPacket, .send 0 zeroPacket, .tx .COD_SHORT_1_4 true, .tx .COD_SHORT_1_4 false,
    .send 0 zeroPacket, .tx .COD_SHORT_1_4 true]

set_option maxRecDepth 100000 in
/-- The third packet of `staleRun` is covered and not delivered. -/
theorem stale_bytes_drop_packet :
    ¬ Run.Always Link.step Link.Delivers (.init 1 2000 fun _ => 0) staleRun := by
  have hrun : (match Run.exec Link.step (.init 1 2000 fun _ => 0) staleRun with
      | .ok k => decide ((k.covered 0).length ≤ (k.delivered 0).length)
      | .error _ => true) = false := by decide +kernel
  intro h
  cases hk : Run.exec Link.step (.init 1 2000 fun _ => 0) staleRun with
  | error e => rw [hk] at hrun; exact absurd hrun (by simp)
  | ok k =>
    rw [hk] at hrun
    exact of_decide_eq_false hrun ((h.exec hk) 0).2.length_le

end Dvb
