import Nctuns.Lib.Fragments
import Nctuns.Wimax.Connection

/-!
# What comes out of a data connection

Every PDU carries a piece of a packet with the number of the connection; a receiver of the PDUs is a
reader of the pieces, as long as they fit.
-/

namespace Wimax

open Fragments

/-! ## Copies -/

section Copying

variable {k : ConnClass}

theorem DataPacket.length_bytes (p : DataPacket k) : p.bytes.length = p.pkt_getlen := by
  simp [Packet.bytes, Packet.pkt_getlen]

/-- The pieces of a packet in its own buffer, then in the shared one. -/
theorem DataPacket.memcpy_bytes (p : DataPacket k) (off n : Nat) :
    memcpy p.bytes off n =
      memcpy p.dat off n ++ memcpy p.sdat (off - k.split) (n - (k.split - off)) := by
  simp only [memcpy, Packet.bytes, List.drop_append, List.take_append, List.length_drop, p.split]

theorem pkt_get_ethernet (p : DataPacket .DataConnectionEthernet) : p.pkt_get = p.dat := by
  have hlen : 0 < p.dat.length := by
    rw [p.split]
    exact Nat.zero_lt_succ _
  rw [Packet.pkt_get, if_pos hlen]

theorem memcpy_self (src : List UInt8) {n : Nat} (h : src.length ≤ n) : memcpy src 0 n = src :=
  List.take_of_length_le h

/-- Nothing is copied from behind the end. -/
theorem memcpy_past (src : List UInt8) {off : Nat} (h : src.length ≤ off) (n : Nat) :
    memcpy src off n = [] := by
  rw [memcpy, List.drop_eq_nil_of_le h, List.take_nil]

/-- No more is copied than there is. -/
theorem memcpy_rest (src : List UInt8) {off n : Nat} (h : src.length - off ≤ n) :
    memcpy src off n = memcpy src off (src.length - off) := by
  rw [memcpy, memcpy, List.take_of_length_le (by rwa [List.length_drop]),
    List.take_of_length_le (by rw [List.length_drop])]

theorem dat_eq_nil (p : DataPacket .DataConnection) : p.dat = [] := List.length_eq_zero_iff.1 p.split

/-- The whole packet. -/
theorem copying_whole (p : DataPacket k) : k.copying.whole p.toPacket = p.bytes := by
  cases k with
  | DataConnection =>
    show memcpy p.sdat 0 p.pkt_getlen = _
    rw [Packet.bytes, dat_eq_nil p, List.nil_append]
    exact memcpy_self _ (Nat.le_add_left _ _)
  | DataConnectionEthernet =>
    show memcpy p.pkt_get 0 14 ++ memcpy p.sdat 0 (p.pkt_getlen - 14) = _
    have hlen : p.pkt_getlen - 14 = p.sdat.length := by
      rw [Packet.pkt_getlen, p.split]
      exact Nat.add_sub_cancel_left _ _
    rw [pkt_get_ethernet, memcpy_self p.dat (n := 14) (Nat.le_of_eq p.split), hlen,
      memcpy_self _ (Nat.le_refl _)]
    rfl

/-- A fragment from the middle. -/
theorem copying_middle (p : DataPacket k) (off n : Nat) :
    k.copying.middle p.toPacket off n = memcpy p.bytes off n := by
  rw [p.memcpy_bytes]
  cases k with
  | DataConnection =>
    show memcpy p.sdat off n = _
    rw [dat_eq_nil p, memcpy_past [] (Nat.zero_le _), List.nil_append]
    simp [ConnClass.split]
  | DataConnectionEthernet =>
    have hsplit : p.dat.length = 14 := p.split
    show (if off < 14 then
        if 14 - off > n then memcpy p.pkt_get off n
        else memcpy p.pkt_get off (14 - off) ++ memcpy p.sdat 0 (n - (14 - off))
      else memcpy p.sdat (off - 14) n) = memcpy p.dat off n ++ memcpy p.sdat (off - 14) (n - (14 - off))
    rw [pkt_get_ethernet]
    by_cases hoff : off < 14
    · rw [if_pos hoff, Nat.sub_eq_zero_of_le (Nat.le_of_lt hoff)]
      by_cases hn : 14 - off > n
      · rw [if_pos hn, Nat.sub_eq_zero_of_le (Nat.le_of_lt hn)]
        simp [memcpy]
      · rw [if_neg hn]
        congr 1
        rw [memcpy_rest p.dat (n := n) (by omega), hsplit]
    · rw [if_neg hoff, memcpy_past p.dat (by omega), List.nil_append,
        Nat.sub_eq_zero_of_le (Nat.le_of_not_lt hoff), Nat.sub_zero]

/-- The last fragment. -/
theorem copying_last (p : DataPacket k) {off n : Nat} (h : off + n = p.pkt_getlen) :
    k.copying.last p.toPacket off n = memcpy p.bytes off n := by
  rw [← copying_middle]
  cases k with
  | DataConnection => rfl
  | DataConnectionEthernet =>
    show (if off < 14 then memcpy p.pkt_get off (14 - off) ++ memcpy p.sdat 0 (n - (14 - off))
      else memcpy p.sdat (off - 14) n) = if off < 14 then
        if 14 - off > n then memcpy p.pkt_get off n
        else memcpy p.pkt_get off (14 - off) ++ memcpy p.sdat 0 (n - (14 - off))
      else memcpy p.sdat (off - 14) n
    have hmin : 14 ≤ p.pkt_getlen := by
      rw [Packet.pkt_getlen, p.split]
      exact Nat.le_add_right 14 _
    by_cases hoff : off < 14
    · rw [if_pos hoff, if_pos hoff, if_neg (by omega)]
    · rw [if_neg hoff, if_neg hoff]

/-- The first fragment. -/
theorem copying_first (p : DataPacket k) (n : Nat) :
    k.copying.first p.toPacket n = memcpy p.bytes 0 n := by
  rw [← copying_middle]
  cases k with
  | DataConnection => rfl
  | DataConnectionEthernet =>
    show (if n ≥ 14 then memcpy p.pkt_get 0 14 ++ memcpy p.sdat 0 (n - 14) else memcpy p.pkt_get 0 n) =
      if 0 < 14 then
        if 14 - 0 > n then memcpy p.pkt_get 0 n
        else memcpy p.pkt_get 0 (14 - 0) ++ memcpy p.sdat 0 (n - (14 - 0))
      else memcpy p.sdat (0 - 14) n
    rw [if_pos (Nat.zero_lt_succ _)]
    by_cases hn : n ≥ 14
    · rw [if_pos hn, if_neg (Nat.not_lt.2 hn)]
    · rw [if_neg hn, if_pos (Nat.not_le.1 hn)]

end Copying

/-! ## PDUs -/

section Pdu

variable {k : ConnClass} {c : Connection k}

/-- The check sequence of a header with its own is 0. -/
theorem hcs_append_hcs (buf : List UInt8) : hcs (buf ++ [hcs buf]) = 0 := by
  have hzero : Nat.iterate hcsBit 8 0 = 0 := by decide
  rw [hcs, List.foldl_append]
  show hcsStep (hcs buf) (hcs buf) = 0
  rw [hcsStep, UInt8.xor_self, hzero]

/-- The PDU carries the payload under a fragment control and a number. -/
structure Carries (cid : UInt16) (n : Nat) (pdu : List UInt8) (fc : frgStat) (payload : List UInt8) :
    Prop where
  hcs : hcs (memcpy pdu 0 6) = 0
  ci : hdrCi pdu = true
  crc : LittleEndian.bytes 4 (crc32 0 (memcpy pdu 0 (pdu.length - 4))).toNat =
    memcpy pdu (pdu.length - 4) 4
  length : pdu.length = overhead pdu + payload.length + 4
  len : pdu.length < 2048 → GHDR_GET_LEN pdu = pdu.length
  cid : GHDR_GET_CID pdu = cid.toNat
  plain : plainFragment pdu = true
  fraghdr : fraghdr pdu = if fc = .frgNone then none else some ⟨fc, n⟩
  payload : memcpy pdu (overhead pdu) payload.length = payload

/-- A connection as it is made, apart from its queue. -/
structure Connection.Fixed (c : Connection k) (cid : UInt16) : Prop where
  CRCIndicator : c.CRCIndicator = true
  type : c.Type_ = 0x20 ∨ c.Type_ = 0
  cid : c.DataCid = cid
  FSN : c.FSN < 8

/-- The length of the headers. -/
theorem Connection.Fixed.length_headers {cid : UInt16} (h : c.Fixed cid) (len : Nat) :
    (c.headers len).length = c.GetHeaderLength + if c.FC = .frgNone then 0 else 1 := by
  by_cases hfc : c.FC = .frgNone
  · rcases h.type with ht | ht <;>
      simp [Connection.headers, Connection.GetHeaderLength, Connection.pduType, Connection.hdr_generic, ht,
        hfc, Nat.testBit]
  · rcases h.type with ht | ht <;>
      simp [Connection.headers, Connection.GetHeaderLength, Connection.pduType, Connection.hdr_generic, ht,
        hfc, Nat.testBit]

theorem frgStat.code_lt (fc : frgStat) : fc.code < 4 := by
  cases fc <;> decide

theorem frgStat.ofCode_code (fc : frgStat) : frgStat.ofCode fc.code = fc := by
  cases fc <;> rfl

/-- The fragment control and the number share a byte. -/
theorem fragment_byte (fc : frgStat) {n : Nat} (hn : n < 8) :
    (UInt8.ofNat (fc.code + n % 8 * 4)).toNat % 4 = fc.code ∧
      (UInt8.ofNat (fc.code + n % 8 * 4)).toNat / 4 % 8 = n := by
  have hcode := fc.code_lt
  rw [UInt8.toNat_ofNat']
  omega

/-- The length field, if eleven bits are enough. -/
theorem length_byte (ci : Bool) {len : Nat} (hlen : len < 2048) :
    (UInt8.ofNat (ci.toNat * 2 + len / 256 % 8 * 32)).toNat / 32 * 256 + (UInt8.ofNat len).toNat = len := by
  have hci := ci.toNat_le
  rw [UInt8.toNat_ofNat', UInt8.toNat_ofNat']
  omega

/-- The bit for the CRC. -/
theorem ci_byte (ci : Bool) (len : Nat) :
    (UInt8.ofNat (ci.toNat * 2 + len / 256 % 8 * 32)).toNat.testBit 1 = ci := by
  rw [UInt8.toNat_ofNat', Nat.testBit_eq_decide_div_mod_eq]
  cases ci <;> simp <;> omega

/-- The connection identifier. -/
theorem cid_bytes (cid : UInt16) :
    (UInt8.ofNat (cid.toNat / 256)).toNat * 256 + (UInt8.ofNat cid.toNat).toNat = cid.toNat := by
  have hcid := cid.toNat_lt
  rw [UInt8.toNat_ofNat', UInt8.toNat_ofNat']
  omega

/-- The type field. -/
theorem type_byte {type : Nat} (h : type < 64) : (UInt8.ofNat (type % 64 * 4)).toNat / 4 = type := by
  rw [UInt8.toNat_ofNat']
  omega

/-- Where the subheaders of a built PDU are. -/
theorem Connection.Fixed.layout {cid : UInt16} (h : c.Fixed cid) (len : Nat) (rest : List UInt8) :
    let pdu := c.headers len ++ rest
    plainFragment pdu = true ∧ overhead pdu = (c.headers len).length ∧
      fraghdr pdu = if c.FC = .frgNone then none else some ⟨c.FC, c.FSN⟩ := by
  intro pdu
  have htype : hdrType pdu = c.pduType := by
    show (UInt8.ofNat (c.pduType % 64 * 4)).toNat / 4 = _
    refine type_byte ?_
    rcases h.type with ht | ht <;> by_cases hfc : c.FC = .frgNone <;>
      simp [Connection.pduType, ht, hfc]
  obtain ⟨hcode, hnum⟩ := fragment_byte c.FC h.FSN
  rw [h.length_headers]
  by_cases hfc : c.FC = .frgNone
  · rcases h.type with ht | ht <;>
      simp [plainFragment, overhead, fragmentAt, Wimax.fraghdr, htype, Connection.pduType, ht, hfc,
        Connection.GetHeaderLength, Nat.testBit]
  · have hbyte : pdu.getD (fragmentAt pdu) 0 = UInt8.ofNat (c.FC.code + c.FSN % 8 * 4) := by
      have hat : fragmentAt pdu = c.GetHeaderLength := by
        rcases h.type with ht | ht <;>
          simp [fragmentAt, htype, Connection.pduType, ht, hfc, Connection.GetHeaderLength, Nat.testBit]
      rw [hat]
      rcases h.type with ht | ht <;>
        simp [pdu, Connection.GetHeaderLength, Connection.headers, Connection.hdr_generic,
          Connection.pduType, ht, hfc, Nat.testBit, LittleEndian.bytes]
    have hsub : Wimax.fraghdr pdu = some ⟨c.FC, c.FSN⟩ := by
      have hbit : (hdrType pdu).testBit 2 = true := by
        rw [htype]
        rcases h.type with ht | ht <;> simp [Connection.pduType, ht, hfc, Nat.testBit]
      rw [Wimax.fraghdr, if_pos hbit, hbyte]
      simp only
      rw [hcode, hnum, c.FC.ofCode_code]
    rw [hsub, if_neg hfc, if_neg hfc]
    rcases h.type with ht | ht <;>
      simp [plainFragment, overhead, fragmentAt, htype, Connection.pduType, ht, hfc,
        Connection.GetHeaderLength, Nat.testBit]

theorem crc_length (crc : UInt32) : (LittleEndian.bytes 4 crc.toNat).length = 4 :=
  LittleEndian.length_bytes _ _

/-- **A built PDU.** -/
theorem Connection.Fixed.carries {cid : UInt16} (h : c.Fixed cid) (payload : List UInt8) (len : Nat)
    (hlen : len = (c.headers len).length + payload.length + 4) :
    Carries cid c.FSN (c.BuildGenericHeader payload len).1 c.FC payload ∧
      (c.BuildGenericHeader payload len).1.length = len := by
  obtain ⟨crc, hcrc⟩ : ∃ crc : UInt32, crc = crc32 0 (memcpy (c.headers len ++ payload) 0 (len - 4)) :=
    ⟨_, rfl⟩
  have hpdu : (c.BuildGenericHeader payload len).1 =
      c.headers len ++ payload ++ LittleEndian.bytes 4 crc.toNat := by
    simp only [Connection.BuildGenericHeader, h.CRCIndicator, if_true, hcrc]
  have hlength : (c.BuildGenericHeader payload len).1.length = len := by
    rw [hpdu, List.length_append, List.length_append, crc_length]
    exact hlen.symm
  have hfront : (c.headers len ++ payload).length = len - 4 := by
    rw [List.length_append]
    omega
  have htake : memcpy (c.headers len ++ payload) 0 (len - 4) = c.headers len ++ payload :=
    memcpy_self _ (Nat.le_of_eq hfront)
  refine ⟨?_, hlength⟩
  have hlay := h.layout len (payload ++ LittleEndian.bytes 4 crc.toNat)
  rw [← List.append_assoc, ← hpdu] at hlay
  obtain ⟨hplain, hover, hfrag⟩ := hlay
  refine ⟨?_, ?_, ?_, ?_, ?_, ?_, hplain, hfrag, ?_⟩
  · rw [hpdu]
    exact hcs_append_hcs (Connection.hdr_generic c.pduType c.CRCIndicator len c.DataCid)
  · rw [hpdu, ← h.CRCIndicator]
    exact ci_byte _ _
  · rw [hlength, hpdu]
    have hsplit : memcpy (c.headers len ++ payload ++ LittleEndian.bytes 4 crc.toNat) 0 (len - 4) =
        c.headers len ++ payload := List.take_left' hfront
    rw [hsplit, memcpy, List.drop_left' hfront, List.take_of_length_le (Nat.le_of_eq (crc_length _)),
      hcrc, htake]
  · rw [hlength, hover]
    exact hlen
  · intro hshort
    rw [hlength] at hshort ⊢
    rw [hpdu]
    exact length_byte _ hshort
  · rw [hpdu, ← h.cid]
    exact cid_bytes _
  · rw [hover, hpdu, List.append_assoc, memcpy, List.drop_left' rfl, List.take_left' rfl]

end Pdu

/-! ## The sender -/

section Sender

variable {k : ConnClass} {c : Connection k} {cid : UInt16} {maxlen : Nat}

/-- The piece of a packet that a payload is. -/
def pieceOf : frgStat → List UInt8 → Piece UInt8
  | .frgNone => .whole
  | .frgLast => .last
  | .frgFirst => .first
  | .frgMiddle => .middle

/-- PDUs on their way carry pieces, numbered one after the other. -/
inductive Flight (cid : UInt16) : Nat → List (List UInt8) → List (Piece UInt8) → Prop
  | nil (n : Nat) : Flight cid n [] []
  | cons {n : Nat} {pdu : List UInt8} {fc : frgStat} {payload : List UInt8} {pdus : List (List UInt8)}
      {ps : List (Piece UInt8)} (h : Carries cid n pdu fc payload) (more : Flight cid ((n + 1) % 8) pdus ps) :
      Flight cid n (pdu :: pdus) (pieceOf fc payload :: ps)

/-- PDUs one behind the other. -/
theorem Flight.append {n : Nat} {pdus pdus' : List (List UInt8)} {ps ps' : List (Piece UInt8)}
    (h : Flight cid n pdus ps) (hn : n < 8) (h' : Flight cid ((n + ps.length) % 8) pdus' ps') :
    Flight cid n (pdus ++ pdus') (ps ++ ps') := by
  induction h with
  | nil n =>
    rw [List.length_nil, Nat.add_zero, Nat.mod_eq_of_lt hn] at h'
    exact h'
  | @cons n pdu fc payload pdus ps hcarries more ih =>
    refine .cons hcarries (ih (Nat.mod_lt _ (by decide)) ?_)
    have hsum : ((n + 1) % 8 + ps.length) % 8 = (n + (ps.length + 1)) % 8 := by omega
    rwa [hsum]

namespace Connection

/-- What has been sent of the packet that is not yet sent to its end. -/
def sent (c : Connection k) : Option (List UInt8) := c.qPkt.map fun p => p.bytes.take c.qLen

/-- A connection between two bursts: a packet in parts is not yet sent to its end. -/
structure Ready (c : Connection k) (cid : UInt16) : Prop extends c.Fixed cid where
  left : ∀ p ∈ c.qPkt, c.qLen < p.pkt_getlen

/-- A connection sends PDUs: what a reader without losses makes of the pieces. -/
structure Sends (cid : UInt16) (c : Connection k) (pdus : List (List UInt8)) (c' : Connection k) :
    Prop where
  ready : c'.Ready cid
  sends : ∃ ps items, Flight cid c.FSN pdus ps ∧ feedAll c.sent ps = (c'.sent, items) ∧
    c.waiting = items ++ c'.waiting ∧ c'.FSN = (c.FSN + ps.length) % 8

/-- Nothing is sent. -/
theorem Sends.nil (h : c.Ready cid) : Sends cid c [] c where
  ready := h
  sends := ⟨[], [], .nil _, rfl, rfl, by rw [List.length_nil, Nat.add_zero, Nat.mod_eq_of_lt h.FSN]⟩

/-- One PDU with a payload of the connection that `built` is, then others. -/
theorem Sends.cons (items : List (List UInt8)) {built c' : Connection k} {payload : List UInt8} {len : Nat}
    {pdus : List (List UInt8)} (hbuilt : built.Fixed cid) (hfsn : built.FSN = c.FSN)
    (hlen : len = (built.headers len).length + payload.length + 4)
    (hfeed : feed c.sent (pieceOf built.FC payload) = (built.sent, items))
    (hwaiting : c.waiting = items ++ built.waiting)
    (hmore : Sends cid (built.BuildGenericHeader payload len).2 pdus c') :
    Sends cid c ((built.BuildGenericHeader payload len).1 :: pdus) c' := by
  obtain ⟨hready, ps, items', hflight, hfeeds, hwaits, hcount⟩ := hmore
  refine ⟨hready, pieceOf built.FC payload :: ps, items ++ items', ?_, ?_, ?_, ?_⟩
  · rw [← hfsn]
    exact .cons (hbuilt.carries payload len hlen).1 hflight
  · rw [feedAll, hfeed]
    simp only
    rw [show built.sent = (built.BuildGenericHeader payload len).2.sent from rfl, hfeeds]
  · rw [hwaiting, List.append_assoc, ← hwaits]
    rfl
  · rw [hcount, ← hfsn, List.length_cons]
    show ((built.FSN + 1) % 8 + ps.length) % 8 = _
    omega

theorem Fixed.padding (h : c.Fixed cid) : c.padding = 4 := by
  rw [Connection.padding, h.CRCIndicator, if_pos rfl]

theorem Fixed.built (h : c.Fixed cid) (payload : List UInt8) (len : Nat) :
    (c.BuildGenericHeader payload len).2.Fixed cid :=
  ⟨h.CRCIndicator, h.type, h.cid, Nat.mod_lt _ (by decide)⟩

theorem headerLength_le (c : Connection k) : c.GetHeaderLength ≤ 8 := by
  unfold GetHeaderLength
  split <;> decide

/-- The length of a copy. -/
theorem length_memcpy (src : List UInt8) {off n : Nat} (h : off + n ≤ src.length) :
    (memcpy src off n).length = n := by
  rw [memcpy, List.length_take, List.length_drop]
  omega

/-- **The queue.** The loop sends whole packets, and at most a first fragment at its end. -/
theorem encapsulateQueue_sends {queue : List (DataPacket k)} {sendlen : Nat} (h : c.Ready cid)
    (hnone : c.qPkt = none) (hqueue : c.PduQ = queue) (hle : sendlen ≤ maxlen)
    (hlt : sendlen < 2 ^ 32) :
    Sends cid c (encapsulateQueue maxlen queue sendlen c).1 (encapsulateQueue maxlen queue sendlen c).2 := by
  induction queue generalizing c sendlen with
  | nil => exact Sends.nil h
  | cons pkt rest ih =>
    have hhead := c.headerLength_le
    have hmax := pkt.max
    have hsent : c.sent = none := by rw [sent, hnone]; rfl
    have hwaiting : c.waiting = pkt.bytes :: rest.map fun p => p.bytes := by
      rw [waiting, hnone, hqueue]
      rfl
    unfold encapsulateQueue
    simp only
    rw [h.padding]
    by_cases hfits : (sendlen + (c.GetHeaderLength + pkt.pkt_getlen + 4)) % 2 ^ 32 ≤ maxlen
    · rw [if_pos hfits]
      set built : Connection k := { c with FC := .frgNone, pduqlen := c.pduqlen - 1, PduQ := rest }
        with hbuilt
      have hfixed : built.Fixed cid := ⟨h.CRCIndicator, h.type, h.cid, h.FSN⟩
      have hbnone : built.qPkt = none := hnone
      have hlen : c.GetHeaderLength + pkt.pkt_getlen + 4 =
          (built.headers (c.GetHeaderLength + pkt.pkt_getlen + 4)).length +
            (k.copying.whole pkt.toPacket).length + 4 := by
        rw [hfixed.length_headers, copying_whole, pkt.length_bytes]
        rfl
      have hcons : ∀ {pdus c'}, Sends cid (built.BuildGenericHeader (k.copying.whole pkt.toPacket)
          (c.GetHeaderLength + pkt.pkt_getlen + 4)).2 pdus c' →
          Sends cid c ((built.BuildGenericHeader (k.copying.whole pkt.toPacket)
            (c.GetHeaderLength + pkt.pkt_getlen + 4)).1 :: pdus) c' := by
        intro pdus c' hmore
        refine Sends.cons [pkt.bytes] hfixed rfl hlen ?_ ?_ hmore
        · rw [hsent, copying_whole, sent, hbnone]
          rfl
        · rw [hwaiting, waiting, hbnone]
          rfl
      have hready : (built.BuildGenericHeader (k.copying.whole pkt.toPacket)
          (c.GetHeaderLength + pkt.pkt_getlen + 4)).2.Ready cid := by
        refine ⟨hfixed.built _ _, ?_⟩
        intro p hp
        rw [show (built.BuildGenericHeader _ _).2.qPkt = none from hbnone] at hp
        cases hp
      by_cases hfull : maxlen ≤ (sendlen + (c.GetHeaderLength + pkt.pkt_getlen + 4)) % 2 ^ 32 + 6 + 4
      · rw [if_pos hfull]
        exact hcons (Sends.nil hready)
      · rw [if_neg hfull]
        exact hcons (ih hready hbnone rfl hfits (Nat.mod_lt _ (by decide)))
    · rw [if_neg hfits]
      by_cases hroom : c.GetHeaderLength + 1 + 4 ≥ (maxlen - sendlen) % 2 ^ 32
      · rw [if_pos hroom]
        exact Sends.nil h
      · rw [if_neg hroom]
        generalize hn : (maxlen - sendlen) % 2 ^ 32 - (c.GetHeaderLength + 1) - 4 = n
        have hshort : n < pkt.pkt_getlen := by omega
        set built : Connection k := { c with
          FC := .frgFirst
          pduqlen := c.pduqlen - 1
          PduQ := rest
          qPkt := some pkt
          qLen := n } with hbuilt
        have hfixed : built.Fixed cid := ⟨h.CRCIndicator, h.type, h.cid, h.FSN⟩
        refine Sends.cons [] hfixed rfl ?_ ?_ ?_ (Sends.nil ⟨hfixed.built _ _, ?_⟩)
        · rw [hfixed.length_headers, copying_first,
            length_memcpy _ (by rw [pkt.length_bytes, Nat.zero_add]; exact hshort.le)]
          show _ = c.GetHeaderLength + 1 + n + 4
          omega
        · rw [hsent, copying_first]
          rfl
        · rw [hwaiting]
          rfl
        · intro p hp
          obtain rfl : pkt = p := Option.some.inj hp
          exact hshort

/-- **A burst.** -/
theorem EncapsulateAll_sends (h : c.Ready cid) (maxlen : Nat) :
    Sends cid c (c.EncapsulateAll maxlen).1 (c.EncapsulateAll maxlen).2 := by
  unfold EncapsulateAll
  cases hpkt : c.qPkt with
  | none => exact encapsulateQueue_sends h hpkt rfl (Nat.zero_le _) (by decide)
  | some pkt =>
    have hhead := c.headerLength_le
    have hmax := pkt.max
    have hleft : c.qLen < pkt.pkt_getlen := h.left pkt hpkt
    have hsent : c.sent = some (pkt.bytes.take c.qLen) := by rw [sent, hpkt]; rfl
    have hwaiting : c.waiting = pkt.bytes :: c.PduQ.map fun p => p.bytes := by
      rw [waiting, hpkt]
      rfl
    simp only
    rw [h.padding]
    by_cases hroom : c.GetHeaderLength + 1 + 4 ≥ maxlen
    · rw [if_pos hroom]
      exact Sends.nil h
    · rw [if_neg hroom]
      by_cases hlast : c.GetHeaderLength + 1 + pkt.pkt_getlen - c.qLen + 4 ≤ maxlen
      · rw [if_pos hlast]
        generalize hlen : c.GetHeaderLength + 1 + pkt.pkt_getlen - c.qLen + 4 = len at hlast ⊢
        have hn : len - (c.GetHeaderLength + 1) - 4 = pkt.pkt_getlen - c.qLen := by omega
        rw [hn]
        set built : Connection k := { c with FC := .frgLast, qPkt := none, qLen := 0 } with hbuilt
        have hfixed : built.Fixed cid := ⟨h.CRCIndicator, h.type, h.cid, h.FSN⟩
        have hcopy : k.copying.last pkt.toPacket c.qLen (pkt.pkt_getlen - c.qLen) =
            pkt.bytes.drop c.qLen := by
          rw [copying_last pkt (by omega), memcpy]
          exact List.take_of_length_le (by rw [List.length_drop, pkt.length_bytes])
        refine Sends.cons [pkt.bytes] hfixed rfl ?_ ?_ ?_ (encapsulateQueue_sends
          ⟨hfixed.built _ _, fun p hp => by cases hp⟩ rfl rfl hlast (by omega))
        · rw [hfixed.length_headers, hcopy, List.length_drop, pkt.length_bytes]
          show _ = c.GetHeaderLength + 1 + _ + 4
          omega
        · rw [hsent, hcopy]
          show (none, [pkt.bytes.take c.qLen ++ pkt.bytes.drop c.qLen]) = _
          rw [List.take_append_drop]
          rfl
        · rw [hwaiting]
          rfl
      · rw [if_neg hlast]
        generalize hn : maxlen - (c.GetHeaderLength + 1) - 4 = n
        have hshort : c.qLen + n < pkt.pkt_getlen := by omega
        set built : Connection k := { c with FC := .frgMiddle, qPkt := some pkt, qLen := c.qLen + n }
          with hbuilt
        have hfixed : built.Fixed cid := ⟨h.CRCIndicator, h.type, h.cid, h.FSN⟩
        refine Sends.cons [] hfixed rfl ?_ ?_ ?_ (Sends.nil ⟨hfixed.built _ _, ?_⟩)
        · rw [hfixed.length_headers, copying_middle,
            length_memcpy _ (by rw [pkt.length_bytes]; exact hshort.le)]
          show _ = c.GetHeaderLength + 1 + n + 4
          omega
        · rw [hsent, copying_middle]
          show (some (pkt.bytes.take c.qLen ++ (pkt.bytes.drop c.qLen).take n), []) = _
          rw [← List.take_add]
          rfl
        · rw [hwaiting]
          rfl
        · intro p hp
          obtain rfl : pkt = p := Option.some.inj hp
          exact hshort

/-- A long packet does not fit into a burst. -/
theorem EncapsulateAll_first {pkt : DataPacket k} (h : c.Fixed cid) (hnone : c.qPkt = none)
    (hqueue : c.PduQ = [pkt]) (hhead : c.GetHeaderLength = 6) (hlen : 2056 ≤ pkt.pkt_getlen) :
    ∃ built : Connection k, built.Fixed cid ∧ built.FC = .frgFirst ∧ built.FSN = c.FSN ∧
      built.GetHeaderLength = 6 ∧ built.qPkt = some pkt ∧ built.qLen = 2036 ∧
      c.EncapsulateAll 2047 =
        ([(built.BuildGenericHeader (memcpy pkt.bytes 0 2036) 2047).1],
          (built.BuildGenericHeader (memcpy pkt.bytes 0 2036) 2047).2) := by
  have hmax := pkt.max
  refine ⟨{ c with
    FC := .frgFirst
    pduqlen := c.pduqlen - 1
    PduQ := []
    qPkt := some pkt
    qLen := 2036 }, ⟨h.CRCIndicator, h.type, h.cid, h.FSN⟩, rfl, rfl, hhead, rfl, rfl, ?_⟩
  unfold EncapsulateAll
  rw [hnone, hqueue]
  simp only
  unfold encapsulateQueue
  simp only
  rw [h.padding, hhead, copying_first]
  exact (if_neg (by omega)).trans (if_neg (by decide))

/-- The next burst has room for a fragment of it. -/
theorem EncapsulateAll_middle {pkt : DataPacket k} (h : c.Fixed cid) (hsome : c.qPkt = some pkt)
    (hleft : c.qLen = 2036) (hhead : c.GetHeaderLength = 6) (hlen : 2056 ≤ pkt.pkt_getlen) :
    ∃ built : Connection k, built.Fixed cid ∧ built.FC = .frgMiddle ∧ built.FSN = c.FSN ∧
      built.GetHeaderLength = 6 ∧
      c.EncapsulateAll 30 =
        ([(built.BuildGenericHeader (memcpy pkt.bytes 2036 19) 30).1],
          (built.BuildGenericHeader (memcpy pkt.bytes 2036 19) 30).2) := by
  refine ⟨{ c with FC := .frgMiddle, qPkt := some pkt, qLen := 2055 },
    ⟨h.CRCIndicator, h.type, h.cid, h.FSN⟩, rfl, rfl, hhead, ?_⟩
  unfold EncapsulateAll
  rw [hsome]
  simp only
  rw [h.padding, hhead, hleft, copying_middle]
  exact (if_neg (by decide)).trans (if_neg (by omega))

end Connection

end Sender

end Wimax
