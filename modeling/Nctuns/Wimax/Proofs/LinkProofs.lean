import Nctuns.Wimax.Proofs.ConnectionProofs

/-!
# A connection and its receiver

While the PDUs fit, the receiver gives back packets that were queued, in their order; when nothing is
lost, it gives back all that have been sent.
-/

namespace Wimax

open Fragments

section Receiver

variable {cid : UInt16} {n : Nat} {pdu payload : List UInt8} {fc : frgStat}

/-- The receiver is a reader of pieces, which keeps what is open in its buffer. -/
structure ConnectionReceiver.Shows (r : ConnectionReceiver) (reader : Reader UInt8) : Prop where
  number : r._fsn = reader.number
  closed : reader.opened = none → r._state = .NoData
  opened : ∀ bs, reader.opened = some bs →
    r._state = .NotComplete ∧ r._buffer.take r._len = bs ∧ r._len = bs.length

variable {r : ConnectionReceiver} {reader : Reader UInt8}

namespace ConnectionReceiver

theorem Shows.noData {number : Nat} (hn : r._fsn = number) (h : r._state = .NoData) :
    r.Shows ⟨none, number⟩ where
  number := hn
  closed _ := h
  opened bs h := by cases h

/-- What the number check leaves open. -/
theorem Shows.checkFsn (h : r.Shows reader) (fc : frgStat) (n : Nat) :
    (r.checkFsn true ⟨fc, n⟩).Shows ⟨reader.openFor 8 n, n⟩ ∧
      (r.checkFsn true ⟨fc, n⟩)._maxlen = r._maxlen ∧ (r.checkFsn true ⟨fc, n⟩)._cid = r._cid := by
  unfold ConnectionReceiver.checkFsn Reader.openFor
  rw [if_pos rfl, h.number]
  by_cases hn : n = (reader.number + 1) % 8
  · rw [if_pos hn, if_neg (not_not_intro hn)]
    exact ⟨⟨rfl, h.closed, h.opened⟩, rfl, rfl⟩
  · rw [if_neg hn, if_pos hn, ConnectionReceiver.drop]
    by_cases hstate : r._state = .NoData
    · rw [if_neg (not_not_intro hstate)]
      exact ⟨.noData rfl hstate, rfl, rfl⟩
    · rw [if_pos hstate]
      exact ⟨.noData rfl rfl, rfl, rfl⟩

theorem store_ok (h : 0 + payload.length ≤ r._maxlen) (state : RecvState) :
    r.store 0 payload payload.length state =
      .ok { r with _buffer := payload, _len := payload.length, _state := state } := by
  rw [store, if_neg (Nat.not_lt.2 h), List.take_zero, List.nil_append, Nat.zero_add]

theorem store_behind_ok (h : r._len + payload.length ≤ r._maxlen) (state : RecvState) :
    r.store r._len payload payload.length state =
      .ok { r with
        _buffer := r._buffer.take r._len ++ payload
        _len := r._len + payload.length
        _state := state } := by
  rw [store, if_neg (Nat.not_lt.2 h)]

theorem drop_fields (r : ConnectionReceiver) :
    r.drop._fsn = r._fsn ∧ r.drop._cid = r._cid := by
  unfold drop
  split <;> exact ⟨rfl, rfl⟩

/-- A fragment that fits, after the number check. -/
theorem Shows.takeFragment {number : Nat} {opened : Option (List UInt8)}
    (h : r.Shows ⟨opened, number⟩) (hfc : fc ≠ .frgNone)
    (hroom : fc = .frgMiddle → r._state = .NotComplete → r._len + payload.length ≤ r._maxlen) :
    ∃ r', r.takeFragment fc payload payload.length = .ok r' ∧
      r'.getPacket.1.Shows ⟨(feed opened (pieceOf fc payload)).1, number⟩ ∧
      r'.getPacket.2 = (feed opened (pieceOf fc payload)).2 ∧ r'.getPacket.1._cid = r._cid := by
  cases fc with
  | frgNone => exact absurd rfl hfc
  | frgFirst =>
    have hmax : 0 + payload.length ≤
        (if payload.length > r.drop._maxlen then payload.length else r.drop._maxlen) := by
      split <;> omega
    refine ⟨_, store_ok hmax _, ⟨?_, ?_, ?_⟩, rfl, (drop_fields r).2⟩
    · exact (drop_fields r).1.trans h.number
    · rintro ⟨⟩
    · rintro bs ⟨⟩
      exact ⟨rfl, List.take_length, rfl⟩
  | frgMiddle =>
    unfold ConnectionReceiver.takeFragment
    simp only
    cases hopen : opened with
    | none =>
      have hstate := h.closed hopen
      rw [if_neg (by rw [hstate]; decide)]
      refine ⟨r, rfl, ?_, ?_, ?_⟩ <;> rw [getPacket, hstate]
      · exact .noData h.number hstate
      · rfl
    | some bs =>
      obtain ⟨hstate, hbuffer, hlen⟩ := h.opened bs hopen
      rw [if_pos hstate, store_behind_ok (hroom rfl hstate), hbuffer]
      refine ⟨_, rfl, ⟨h.number, ?_, ?_⟩, rfl, rfl⟩
      · rintro ⟨⟩
      · rintro bs' ⟨⟩
        refine ⟨rfl, ?_, ?_⟩
        · show (bs ++ payload).take (r._len + payload.length) = bs ++ payload
          rw [hlen, ← List.length_append, List.take_length]
        · show r._len + payload.length = (bs ++ payload).length
          rw [hlen, List.length_append]
  | frgLast =>
    unfold ConnectionReceiver.takeFragment
    simp only
    cases hopen : opened with
    | none =>
      have hstate := h.closed hopen
      rw [if_neg (by rw [hstate]; decide)]
      refine ⟨r, rfl, ?_, ?_, ?_⟩ <;> rw [getPacket, hstate]
      · exact .noData h.number hstate
      · rfl
    | some bs =>
      obtain ⟨hstate, hbuffer, hlen⟩ := h.opened bs hopen
      have hmax : r._len + payload.length ≤
          (if r._len + payload.length > r._maxlen then r._len + payload.length else r._maxlen) := by
        split <;> omega
      rw [if_pos hstate, store_behind_ok hmax, hbuffer]
      refine ⟨_, rfl, .noData h.number rfl, ?_, rfl⟩
      show [(bs ++ payload).take (r._len + payload.length)] = [bs ++ payload]
      rw [hlen, ← List.length_append, List.take_length]

/-- A PDU whose length fits into its header comes to `insert`. -/
theorem recv_eq (hpdu : Carries cid n pdu fc payload) (hcid : r._cid = cid)
    (hshort : pdu.length < 2048) :
    r.recv pdu = (r.insert pdu (pdu.length - 4)).map getPacket := by
  have hlen := hpdu.len hshort
  have hlength := hpdu.length
  have hwhole : ¬ (hcs (memcpy pdu 0 6) ≠ 0 ∨ pdu.length = 0) := by
    rintro (hne | hzero)
    · exact hne hpdu.hcs
    · omega
  have hlong : ¬ (true = true ∧ pdu.length < 4) := by
    rintro ⟨-, hless⟩
    omega
  have hcrc : ¬ (true = true ∧ LittleEndian.bytes 4 (crc32 0 (memcpy pdu 0 (pdu.length - 4))).toNat ≠
      memcpy pdu (pdu.length - 4) 4) := by
    rintro ⟨-, hne⟩
    exact hne hpdu.crc
  have hmine : ¬ GHDR_GET_CID pdu ≠ r._cid.toNat := by
    rw [hpdu.cid, hcid]
    exact not_not_intro rfl
  unfold ConnectionReceiver.recv
  simp only
  rw [hlen, hpdu.ci, if_pos rfl, if_neg hwhole, if_neg hlong, if_neg hcrc, if_neg hmine]
  cases r.insert pdu (pdu.length - 4) with
  | error e => rfl
  | ok r' => rfl

/-- **A PDU that fits.** The receiver reads its piece. -/
theorem Shows.recv (h : r.Shows reader) (hcid : r._cid = cid) (hpdu : Carries cid n pdu fc payload)
    (hfits : Link.Fits r pdu) :
    ∃ r', r.recv pdu = .ok (r', (reader.read 8 n (pieceOf fc payload)).2) ∧
      r'.Shows (reader.read 8 n (pieceOf fc payload)).1 ∧ r'._cid = cid := by
  have hlength := hpdu.length
  have hdata : pdu.length - 4 - overhead pdu = payload.length := by omega
  rw [recv_eq hpdu hcid hfits.1, ConnectionReceiver.insert, if_neg (by omega), hdata, hpdu.payload, hpdu.fraghdr, hpdu.plain]
  by_cases hfc : fc = .frgNone
  · rw [if_pos hfc]
    subst hfc
    refine ⟨{ r with _external := payload, _len := 0, _state := .NoData }, ?_, .noData h.number rfl, hcid⟩
    show Except.ok (_, [payload.take payload.length]) = _
    rw [List.take_length]
    rfl
  · rw [if_neg hfc]
    simp only
    obtain ⟨hchecked, hmax, hcid'⟩ := h.checkFsn fc n
    have hroom : fc = .frgMiddle → (r.checkFsn true ⟨fc, n⟩)._state = .NotComplete →
        (r.checkFsn true ⟨fc, n⟩)._len + payload.length ≤ (r.checkFsn true ⟨fc, n⟩)._maxlen := by
      intro hmiddle hstate
      rw [hmax]
      have hn : n = (r._fsn + 1) % 8 := by
        by_contra hne
        have hnone : reader.openFor 8 n = none := by
          rw [Reader.openFor, if_neg (by rw [← h.number]; exact hne)]
        rw [hchecked.closed hnone] at hstate
        cases hstate
      have hsame : r.checkFsn true ⟨fc, n⟩ = { r with _fsn := n } := by
        rw [ConnectionReceiver.checkFsn, if_pos rfl, if_neg (not_not_intro hn)]
      rw [hsame] at hstate ⊢
      have hfit := hfits.2 ⟨fc, n⟩ (by rw [hpdu.fraghdr, if_neg hfc]; rfl) hmiddle hstate hn
      rw [hpdu.ci, if_pos rfl, hdata] at hfit
      exact hfit
    obtain ⟨r', hr', hshows, hitems, hrcid⟩ := hchecked.takeFragment hfc hroom
    rw [hr']
    refine ⟨r'.getPacket.1, ?_, ?_, by rw [hrcid, hcid', hcid]⟩
    · show Except.ok (r'.getPacket.1, r'.getPacket.2) = _
      rw [hitems]
      cases fc with
      | frgNone => exact absurd rfl hfc
      | frgLast => rfl
      | frgFirst => rfl
      | frgMiddle => rfl
    · cases fc with
      | frgNone => exact absurd rfl hfc
      | frgLast => exact hshows
      | frgFirst => exact hshows
      | frgMiddle => exact hshows

/-- A middle fragment that goes on with the open packet beyond the buffer. -/
theorem Shows.overruns {bs : List UInt8} {number : Nat} (h : r.Shows ⟨some bs, number⟩) (hcid : r._cid = cid)
    (hpdu : Carries cid ((number + 1) % 8) pdu .frgMiddle payload) (hshort : pdu.length < 2048)
    (hroom : r._maxlen < bs.length + payload.length) : r.recv pdu = .error .overrun := by
  have hlength := hpdu.length
  obtain ⟨hstate, hbuffer, hlen⟩ := h.opened bs rfl
  have hdata : pdu.length - 4 - overhead pdu = payload.length := by omega
  rw [recv_eq hpdu hcid hshort, ConnectionReceiver.insert, if_neg (by omega), hdata, hpdu.payload, hpdu.fraghdr,
    hpdu.plain, if_neg (by decide)]
  simp only
  rw [ConnectionReceiver.checkFsn, if_pos rfl, h.number, if_neg (not_not_intro rfl),
    ConnectionReceiver.takeFragment]
  simp only
  rw [if_pos hstate, store, if_pos (by simp only; omega)]
  rfl

end ConnectionReceiver

end Receiver

namespace Link

variable {k : ConnClass} {cid : UInt16} {s : Link k}

/-- `t` PDUs have left; `tap` and `tapped` are what a reader of all of them would have open and have
    given back. The pieces `ps` are on their way and end the packets `items`. -/
structure Tracks (cid : UInt16) (s : Link k) (t : Nat) (reader : Reader UInt8)
    (tap : Option (List UInt8)) (tapped items : List (List UInt8)) (ps : List (Piece UInt8)) : Prop where
  ready : s.sender.Ready cid
  mine : s.receiver._cid = cid
  flight : Flight cid (t % 8) s.flight ps
  FSN : s.sender.FSN = (t + ps.length) % 8
  feeds : feedAll tap ps = (s.sender.sent, items)
  queued : s.queued = tapped ++ items ++ s.sender.waiting
  shows : s.receiver.Shows reader
  follows : reader.Follows 8 tap t s.gap
  returned : s.returned.Sublist tapped
  lossless : s.lossy = false → s.gap = 0 ∧ reader.opened = tap ∧ s.returned = tapped

/-- The link is tracked by some reading of what is on its way. -/
def Tracked (cid : UInt16) (s : Link k) : Prop :=
  ∃ t reader tap tapped items ps, s.Tracks cid t reader tap tapped items ps

variable {t : Nat} {reader : Reader UInt8} {tap : Option (List UInt8)}
  {tapped items : List (List UInt8)} {ps : List (Piece UInt8)}

theorem Tracks.delivers (h : s.Tracks cid t reader tap tapped items ps) : s.Delivers := by
  constructor
  · rw [h.queued, List.append_assoc]
    exact h.returned.trans (List.sublist_append_left _ _)
  · intro hlossy
    obtain ⟨-, -, hall⟩ := h.lossless hlossy
    rw [h.queued, hall, List.append_assoc]
    refine ⟨List.prefix_append _ _, ?_⟩
    intro hempty
    have hflight := h.flight
    rw [hempty] at hflight
    cases hflight
    have hitems : items = [] := congrArg Prod.snd h.feeds.symm
    rw [hitems, List.nil_append]

theorem init_tracked (k : ConnClass) (cid src_nid : UInt16) (mesh : Bool) :
    (init k cid src_nid mesh).Tracked cid := by
  refine ⟨0, ⟨none, 0⟩, none, [], [], [], ⟨⟨rfl, ?_, rfl, Nat.zero_lt_succ _⟩, ?_⟩, rfl, .nil _, rfl, rfl,
    rfl, .noData rfl rfl, .closed _ (Nat.zero_lt_succ _), .refl _, fun _ => ⟨rfl, rfl, rfl⟩⟩
  · cases mesh
    · exact Or.inr rfl
    · exact Or.inl rfl
  · rintro p ⟨⟩

theorem Tracks.insert (h : s.Tracks cid t reader tap tapped items ps) (pkt : DataPacket k) :
    Tracked cid { s with
      sender := s.sender.Insert pkt
      queued := s.queued ++ [pkt.toPacket.bytes] } := by
  refine ⟨t, reader, tap, tapped, items, ps, { h with
    ready := ⟨⟨h.ready.CRCIndicator, h.ready.type, h.ready.cid, h.ready.FSN⟩, h.ready.left⟩
    queued := ?_ }⟩
  show s.queued ++ [pkt.toPacket.bytes] =
    tapped ++ items ++ (s.sender.qPkt.toList ++ (s.sender.PduQ ++ [pkt])).map fun p => p.bytes
  rw [h.queued, Connection.waiting]
  simp only [List.map_append, List.append_assoc, List.map_cons, List.map_nil]

theorem Tracks.burst (h : s.Tracks cid t reader tap tapped items ps) (maxlen : Nat) :
    Tracked cid { s with
      sender := (s.sender.EncapsulateAll maxlen).2
      flight := s.flight ++ (s.sender.EncapsulateAll maxlen).1 } := by
  obtain ⟨hready, ps', items', hflight, hfeeds, hwaiting, hcount⟩ :=
    Connection.EncapsulateAll_sends h.ready maxlen
  refine ⟨t, reader, tap, tapped, items ++ items', ps ++ ps', { h with
    ready := hready
    flight := h.flight.append (Nat.mod_lt _ (by decide)) ?_
    FSN := ?_
    feeds := ?_
    queued := ?_ }⟩
  · rw [h.FSN] at hflight
    have hsum : (t % 8 + ps.length) % 8 = (t + ps.length) % 8 := by omega
    rwa [hsum]
  · show (s.sender.EncapsulateAll maxlen).2.FSN = _
    rw [hcount, h.FSN, List.length_append]
    omega
  · rw [feedAll_append, h.feeds]
    simp only
    rw [hfeeds]
  · show s.queued = _
    rw [h.queued, hwaiting]
    simp only [List.append_assoc]

theorem Tracks.deliver (h : s.Tracks cid t reader tap tapped items ps) {pdu : List UInt8}
    {rest : List (List UInt8)} (hflight : s.flight = pdu :: rest) (hfits : Fits s.receiver pdu) :
    ∃ r, s.receiver.recv pdu = .ok r ∧ Tracked cid { s with
      flight := rest
      receiver := r.1
      returned := s.returned ++ r.2
      gap := 0 } := by
  have hcarried := h.flight
  rw [hflight] at hcarried
  cases hcarried with
  | @cons _ _ fc payload _ ps' hpdu hmore =>
    obtain ⟨r', hrecv, hshows, hmine⟩ := h.shows.recv h.mine hpdu hfits
    have hfeeds := h.feeds
    rw [feedAll] at hfeeds
    have hitems : (feed tap (pieceOf fc payload)).2 ++ (feedAll (feed tap (pieceOf fc payload)).1 ps').2 =
        items := congrArg Prod.snd hfeeds
    obtain ⟨hfollows, hread⟩ := h.follows.read (pieceOf fc payload)
    refine ⟨_, hrecv, t + 1, _, (feed tap (pieceOf fc payload)).1,
      tapped ++ (feed tap (pieceOf fc payload)).2,
      (feedAll (feed tap (pieceOf fc payload)).1 ps').2, ps', { h with
        mine := hmine
        flight := ?_
        FSN := ?_
        feeds := Prod.ext (congrArg Prod.fst hfeeds :) rfl
        queued := ?_
        shows := hshows
        follows := hfollows
        returned := h.returned.append hread
        lossless := ?_ }⟩
    · have hsum : (t % 8 + 1) % 8 = (t + 1) % 8 := by omega
      rwa [hsum] at hmore
    · rw [h.FSN, List.length_cons]
      congr 1
      omega
    · show s.queued = _
      rw [h.queued, ← hitems]
      simp only [List.append_assoc]
    · intro hlossy
      obtain ⟨hgap, hopened, hall⟩ := h.lossless hlossy
      have hf := h.follows
      rw [hgap] at hf
      obtain ⟨hopen, hgives⟩ := hf.read_all hopened (pieceOf fc payload)
      refine ⟨rfl, hopen, ?_⟩
      show s.returned ++ _ = _
      rw [hall, hgives]

theorem Tracks.lose (h : s.Tracks cid t reader tap tapped items ps) {pdu : List UInt8}
    {rest : List (List UInt8)} (hflight : s.flight = pdu :: rest) (hgap : s.gap + 1 < 8) :
    Tracked cid { s with flight := rest, gap := s.gap + 1, lossy := true } := by
  have hcarried := h.flight
  rw [hflight] at hcarried
  cases hcarried with
  | @cons _ _ fc payload _ ps' hpdu hmore =>
    have hfeeds := h.feeds
    rw [feedAll] at hfeeds
    have hitems : (feed tap (pieceOf fc payload)).2 ++ (feedAll (feed tap (pieceOf fc payload)).1 ps').2 =
        items := congrArg Prod.snd hfeeds
    refine ⟨t + 1, reader, (feed tap (pieceOf fc payload)).1,
      tapped ++ (feed tap (pieceOf fc payload)).2,
      (feedAll (feed tap (pieceOf fc payload)).1 ps').2, ps', { h with
        flight := ?_
        FSN := ?_
        feeds := Prod.ext (congrArg Prod.fst hfeeds :) rfl
        queued := ?_
        follows := h.follows.lose hgap _
        returned := h.returned.trans (List.sublist_append_left _ _)
        lossless := ?_ }⟩
    · have hsum : (t % 8 + 1) % 8 = (t + 1) % 8 := by omega
      rwa [hsum] at hmore
    · rw [h.FSN, List.length_cons]
      congr 1
      omega
    · show s.queued = _
      rw [h.queued, ← hitems]
      simp only [List.append_assoc]
    · rintro ⟨⟩

/-- No step goes wrong while the PDUs fit and the losses are few. -/
theorem step_tracked (h : s.Tracked cid) (a : LinkAction k) (hbounded : s.Bounded a)
    (hroom : s.Room a) : ∃ s', s.step a = .ok s' ∧ s'.Tracked cid := by
  have htracked := h
  obtain ⟨t, reader, tap, tapped, items, ps, h⟩ := h
  cases a with
  | insert pkt => exact ⟨_, rfl, h.insert pkt⟩
  | burst maxlen => exact ⟨_, rfl, h.burst maxlen⟩
  | deliver =>
    unfold Link.step
    cases hflight : s.flight with
    | nil => exact ⟨s, rfl, htracked⟩
    | cons pdu rest =>
      obtain ⟨r, hr, hnext⟩ := h.deliver hflight (hroom pdu (by rw [hflight]; rfl))
      simp only
      rw [hr]
      exact ⟨_, rfl, hnext⟩
  | lose =>
    unfold Link.step
    cases hflight : s.flight with
    | nil => exact ⟨s, rfl, htracked⟩
    | cons pdu rest => exact ⟨_, rfl, h.lose hflight hbounded⟩

/-- **Fragmentation and reassembly.** While the PDUs that arrive fit and fewer than 8 in a row are lost,
    what is returned are packets that were queued; without losses they are all returned, in order. -/
theorem run_fragments_delivered (k : ConnClass) (cid src_nid : UInt16) (mesh : Bool)
    (acts : List (LinkAction k))
    (hbounded : Run.Along step Bounded (init k cid src_nid mesh) acts)
    (hroom : Run.Along step Room (init k cid src_nid mesh) acts) :
    Run.Always step Delivers (init k cid src_nid mesh) acts ∧
      ∃ s, Run.exec step (init k cid src_nid mesh) acts = .ok s := by
  have hboth : Run.Along step (fun s a => s.Bounded a ∧ s.Room a) (init k cid src_nid mesh) acts :=
    hbounded.and hroom
  have hstep : ∀ (s : Link k) a, s.Tracked cid → s.Bounded a ∧ s.Room a →
      ∃ s', s.step a = .ok s' ∧ s'.Tracked cid := fun s a h hc => step_tracked h a hc.1 hc.2
  have hinit := init_tracked k cid src_nid mesh
  refine ⟨(Run.Always.of_along (fun s a s' h hc hs => ?_) hinit hboth).mono ?_,
    Run.exec_ok_of_along hstep hinit hboth⟩
  · obtain ⟨s'', hs'', hnext⟩ := hstep s a h hc
    rw [hs] at hs''
    obtain rfl : s' = s'' := Except.ok.inj hs''
    exact hnext
  · rintro s ⟨t, reader, tap, tapped, items, ps, h⟩
    exact h.delivers

/-- A packet with `n` zero bytes behind a header of zeros. -/
def zeros (n : Nat) (h : n + 14 < 2 ^ 31) : DataPacket .DataConnectionEthernet where
  dat := List.replicate 14 0
  sdat := List.replicate n 0
  split := List.length_replicate
  pos := by
    rw [Packet.pkt_getlen, List.length_replicate]
    exact Nat.lt_add_right _ (Nat.zero_lt_succ 13)
  max := by simp [Packet.pkt_getlen]; omega

/-- Two packets in five PDUs, of which the second is lost. -/
theorem run_fragments_delivered_two :
    let s := init .DataConnectionEthernet 5 1 false
    let acts := [.insert (zeros 30 (by decide)), .insert (zeros 9 (by decide)), .burst 20, .deliver,
      .burst 30, .burst 50, .lose, .deliver, .deliver]
    Run.Along step Bounded s acts ∧ Run.Along step Room s acts ∧ Run.Always step Delivers s acts :=
  ⟨by decide +kernel, by decide +kernel,
    (run_fragments_delivered _ _ _ _ _ (by decide +kernel) (by decide +kernel)).1⟩

/-- A packet of 2056 bytes or more whose second fragment does not fit into the buffer. -/
theorem long_packet_overruns (cid src_nid : UInt16) (pkt : DataPacket k) (h : 2056 ≤ pkt.pkt_getlen) :
    Run.exec step (init k cid src_nid false)
      [.insert pkt, .burst 2047, .deliver, .burst 30, .deliver] = .error .overrun := by
  have hlen := pkt.length_bytes
  obtain ⟨first, hfixed, hfc, hfsn, hhead, hqpkt, hqlen, hfirst⟩ :=
    Connection.EncapsulateAll_first (c := ((Connection.new k cid src_nid false).Insert pkt))
      (⟨rfl, Or.inr rfl, rfl, Nat.zero_lt_succ _⟩ : Connection.Fixed _ cid) rfl rfl
      (by simp [Connection.GetHeaderLength, Connection.Insert, Connection.new]) h
  have hbytes : (memcpy pkt.bytes 0 2036).length = 2036 := Connection.length_memcpy _ (by omega)
  obtain ⟨hcarries, hlength⟩ := hfixed.carries (memcpy pkt.bytes 0 2036) 2047 (by
    rw [hfixed.length_headers, hhead, hfc, hbytes]; rfl)
  have hnext := hfixed.built (memcpy pkt.bytes 0 2036) 2047
  obtain ⟨middle, hfixed', hfc', hfsn', hhead', hmiddle⟩ :=
    Connection.EncapsulateAll_middle (c := (first.BuildGenericHeader (memcpy pkt.bytes 0 2036) 2047).2)
      hnext hqpkt hqlen hhead h
  have hbytes' : (memcpy pkt.bytes 2036 19).length = 19 := Connection.length_memcpy _ (by omega)
  obtain ⟨hcarries', hlength'⟩ := hfixed'.carries (memcpy pkt.bytes 2036 19) 30 (by
    rw [hfixed'.length_headers, hhead', hfc', hbytes']; rfl)
  have hnum : first.FSN = 0 := hfsn
  have hnum' : middle.FSN = 1 := by
    rw [hfsn']
    show (first.FSN + 1) % 8 = 1
    rw [hnum]
  rw [hfc, hnum] at hcarries
  rw [hfc', hnum'] at hcarries'
  have hopen : (ConnectionReceiver.new cid).recv
      (first.BuildGenericHeader (memcpy pkt.bytes 0 2036) 2047).1 =
      .ok ({ ConnectionReceiver.new cid with
        _buffer := memcpy pkt.bytes 0 2036
        _len := 2036
        _state := .NotComplete }, []) := by
    have hlay := hcarries.length
    rw [ConnectionReceiver.recv_eq hcarries rfl (by rw [hlength]; decide), ConnectionReceiver.insert,
      if_neg (by omega), show (first.BuildGenericHeader (memcpy pkt.bytes 0 2036) 2047).1.length - 4 -
        overhead (first.BuildGenericHeader (memcpy pkt.bytes 0 2036) 2047).1 =
          (memcpy pkt.bytes 0 2036).length by omega,
      hcarries.payload, hcarries.fraghdr, hcarries.plain, if_neg (by decide), hbytes]
    rfl
  have hshows : ConnectionReceiver.Shows { ConnectionReceiver.new cid with
      _buffer := memcpy pkt.bytes 0 2036
      _len := 2036
      _state := .NotComplete } ⟨some (memcpy pkt.bytes 0 2036), 0⟩ := by
    refine ⟨rfl, ?_, ?_⟩
    · rintro ⟨⟩
    · rintro bs ⟨⟩
      exact ⟨rfl, List.take_of_length_le (Nat.le_of_eq hbytes), hbytes.symm⟩
  have hover := hshows.overruns rfl hcarries' (by rw [hlength']; decide)
    (by
    rw [hbytes, hbytes']
    exact (by decide : 2048 < 2036 + 19))
  simp only [Run.exec, step, init, hfirst, List.nil_append, hopen, hmiddle, hover]

/-- A PDU of 2048 bytes has the length 0 in its header, and its packet is never returned; a middle
    fragment may run past the end of the buffer. -/
theorem long_packets_fail :
    let s := init .DataConnectionEthernet 5 1 false
    let acts := [.insert (zeros 2024 (by decide)), .burst 2048, .deliver]
    Run.Along step Bounded s acts ∧ ¬ Run.Always step Delivers s acts ∧
      Run.exec step s [.insert (zeros 2100 (by decide)), .burst 2047, .deliver, .burst 30, .deliver] =
        .error .overrun := by
  intro s acts
  refine ⟨⟨trivial, fun _ _ => ⟨trivial, fun _ _ => ⟨trivial, fun _ _ => trivial⟩⟩⟩, ?_,
    long_packet_overruns _ _ _ ?_⟩
  · intro halways
    have hrun : (Run.exec step s acts).map (fun s => (s.lossy, s.flight.length, s.returned.length,
        s.sender.waiting.length, s.queued.length)) = .ok (false, 0, 0, 0, 1) := by decide +kernel
    cases hs : Run.exec step s acts with
    | error e =>
      rw [hs] at hrun
      cases hrun
    | ok t =>
      rw [hs] at hrun
      have hcounts := Except.ok.inj hrun
      obtain ⟨hlossy, hcounts⟩ := Prod.mk.inj hcounts
      obtain ⟨hflight, hcounts⟩ := Prod.mk.inj hcounts
      obtain ⟨hreturned, hcounts⟩ := Prod.mk.inj hcounts
      obtain ⟨hwaiting, hqueued⟩ := Prod.mk.inj hcounts
      have hall := ((halways.exec hs).2 hlossy).2 (List.length_eq_zero_iff.1 hflight)
      have hlen := congrArg List.length hall
      rw [List.length_append, hreturned, hwaiting, hqueued] at hlen
      cases hlen
  · rw [← DataPacket.length_bytes, Packet.bytes, zeros, List.length_append, List.length_replicate,
      List.length_replicate]
    decide

end Link

end Wimax
