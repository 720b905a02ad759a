import Nctuns.Lib.Outcome
import Nctuns.Wimax.BandwidthReport
import Nctuns.Wimax.Proofs.ConnectionProofs

/-!
# Proofs about the bandwidth report

In a burst of exactly the bytes that are left each packet fits when its turn comes, and the loop does not
stop before the last one, as every packet needs more than the ten bytes that it is ready to waste.
-/

namespace Wimax.Connection

open Outcome

variable {k : ConnClass} {c : Connection k} {cid : UInt16} {maxlen : ℕ}

/-! ### The report -/

theorem addInt_bind {β : Type} (a b : ℕ) (f : ℕ → Except IntOverflow β) :
    (addInt a b >>= f) = if a + b < 2 ^ 31 then f (a + b) else .error .intOverflow := by
  unfold addInt
  split <;> rfl

theorem reported_eq (c : Connection k) (hlen len : ℕ) :
    c.reported hlen len =
      if hlen + len + c.padding < 2 ^ 31 then .ok (hlen + len + c.padding) else .error .intOverflow := by
  unfold reported
  rw [addInt_bind]
  unfold addInt
  by_cases h : hlen + len < 2 ^ 31
  · rw [if_pos h]
  · rw [if_neg h, if_neg (by omega)]

/-- The loop of `GetInformation` over the queue. -/
theorem foldlM_reported (c : Connection k) (queue : List (DataPacket k)) {total : ℕ} (info : List ℕ)
    (htotal : total < 2 ^ 31) :
    queue.foldlM (fun r pkt => do
        let n ← c.reported c.GetHeaderLength pkt.pkt_getlen
        let totallen ← addInt r.1 n
        .ok (totallen, r.2 ++ [n])) (total, info) =
      if total + (queue.map fun p => c.GetHeaderLength + p.pkt_getlen + c.padding).sum < 2 ^ 31 then
        .ok (total + (queue.map fun p => c.GetHeaderLength + p.pkt_getlen + c.padding).sum,
          info ++ queue.map fun p => c.GetHeaderLength + p.pkt_getlen + c.padding)
      else .error .intOverflow := by
  induction queue generalizing total info with
  | nil =>
    rw [List.map_nil, List.sum_nil, Nat.add_zero, if_pos htotal, List.append_nil]
    rfl
  | cons pkt queue ih =>
    rw [List.foldlM_cons, reported_eq]
    generalize hn : c.GetHeaderLength + pkt.pkt_getlen + c.padding = n
    simp only [List.map_cons, hn, List.sum_cons]
    by_cases hfits : n < 2 ^ 31
    · rw [if_pos hfits, bind_ok, addInt_bind]
      by_cases hsum : total + n < 2 ^ 31
      · rw [if_pos hsum, bind_ok, ih _ hsum, Nat.add_assoc, List.append_assoc, List.singleton_append]
      · rw [if_neg hsum, bind_error, if_neg (by omega)]
    · rw [if_neg hfits, bind_error, bind_error, if_neg (by omega)]

theorem GetInformation_eq (c : Connection k) :
    c.GetInformation =
      if c.needed.sum < 2 ^ 31 then .ok (c.needed.sum, c.needed) else .error .intOverflow := by
  unfold GetInformation needed
  cases c.qPkt with
  | none =>
    rw [Option.toList_none, List.map_nil, List.nil_append]
    dsimp only
    rw [bind_ok, foldlM_reported c c.PduQ [] (by decide), Nat.zero_add, List.nil_append]
  | some pkt =>
    rw [Option.toList_some, List.map_singleton, List.singleton_append, List.sum_cons]
    dsimp only
    rw [reported_eq c (c.GetHeaderLength + 1)]
    generalize c.GetHeaderLength + 1 + (pkt.pkt_getlen - c.qLen) + c.padding = n
    by_cases hfits : n < 2 ^ 31
    · rw [if_pos hfits, bind_ok, bind_ok, foldlM_reported c c.PduQ [n] hfits, List.singleton_append]
    · rw [if_neg hfits, if_neg (by omega)]
      rfl

/-! ### A burst is never overrun -/

theorem queueSendlen_le (hlen padding maxlen : ℕ) (queue : List (DataPacket k)) {sendlen : ℕ}
    (h : sendlen ≤ maxlen) : queueSendlen hlen padding maxlen queue sendlen ≤ maxlen := by
  induction queue generalizing sendlen with
  | nil => exact h
  | cons pkt queue ih =>
    unfold queueSendlen
    dsimp only
    split
    · next hfits =>
      split
      · exact hfits
      · exact ih hfits
    · split
      · exact h
      · have hpart := Nat.mod_le (maxlen - sendlen) (2 ^ 32)
        have hsum := Nat.mod_le (sendlen + (maxlen - sendlen) % 2 ^ 32) (2 ^ 32)
        omega

theorem sendlen_le (c : Connection k) (maxlen : ℕ) : c.sendlen maxlen ≤ maxlen := by
  unfold sendlen
  cases c.qPkt with
  | none => exact queueSendlen_le _ _ _ _ (Nat.zero_le maxlen)
  | some pkt =>
    dsimp only
    split
    · exact Nat.zero_le maxlen
    · split
      · next hlast => exact queueSendlen_le _ _ _ _ hlast
      · exact Nat.mod_le maxlen _

/-- The loop over the queue moves `sendlen` on by the bytes of the PDUs that it writes. -/
theorem sum_encapsulateQueue {queue : List (DataPacket k)} {sendlen : ℕ} (h : c.Fixed cid)
    (hle : sendlen ≤ maxlen) (hmax : maxlen + 12 ≤ 2 ^ 31) :
    sendlen + ((encapsulateQueue maxlen queue sendlen c).1.map List.length).sum =
      queueSendlen c.GetHeaderLength c.padding maxlen queue sendlen := by
  induction queue generalizing c sendlen with
  | nil => rfl
  | cons pkt rest ih =>
    have hhead := c.headerLength_le
    have hpad := h.padding
    have hpkt := pkt.max
    have hwrap : (sendlen + (c.GetHeaderLength + pkt.pkt_getlen + c.padding)) % 2 ^ 32 =
        sendlen + (c.GetHeaderLength + pkt.pkt_getlen + c.padding) := Nat.mod_eq_of_lt (by omega)
    unfold encapsulateQueue queueSendlen
    dsimp only
    rw [hwrap]
    by_cases hfits : sendlen + (c.GetHeaderLength + pkt.pkt_getlen + c.padding) ≤ maxlen
    · -- a whole packet
      rw [if_pos hfits, if_pos hfits]
      set built : Connection k := { c with FC := .frgNone, pduqlen := c.pduqlen - 1, PduQ := rest }
        with hbuilt
      have hfixed : built.Fixed cid := ⟨h.CRCIndicator, h.type, h.cid, h.FSN⟩
      obtain ⟨-, hlen⟩ := hfixed.carries (k.copying.whole pkt.toPacket)
        (c.GetHeaderLength + pkt.pkt_getlen + c.padding) (by
          rw [hfixed.length_headers, copying_whole, pkt.length_bytes, hpad]
          rfl)
      by_cases hfull : maxlen ≤ sendlen + (c.GetHeaderLength + pkt.pkt_getlen + c.padding) + 6 + c.padding
      · rw [if_pos hfull, if_pos hfull, List.map_singleton, List.sum_singleton, hlen]
      · rw [if_neg hfull, if_neg hfull, List.map_cons, List.sum_cons, hlen, ← Nat.add_assoc]
        exact ih (hfixed.built _ _) hfits
    · rw [if_neg hfits, if_neg hfits, Nat.mod_eq_of_lt (by omega : maxlen - sendlen < 2 ^ 32)]
      by_cases hroom : c.GetHeaderLength + 1 + c.padding ≥ maxlen - sendlen
      · rw [if_pos hroom, if_pos hroom]
        rfl
      · -- the first fragment of a packet
        rw [if_neg hroom, if_neg hroom, Nat.mod_eq_of_lt (by omega), List.map_singleton, List.sum_singleton]
        generalize hn : maxlen - sendlen - (c.GetHeaderLength + 1) - c.padding = n
        set built : Connection k := { c with
          FC := .frgFirst
          pduqlen := c.pduqlen - 1
          PduQ := rest
          qPkt := some pkt
          qLen := n } with hbuilt
        have hfixed : built.Fixed cid := ⟨h.CRCIndicator, h.type, h.cid, h.FSN⟩
        refine congrArg (sendlen + ·) (hfixed.carries _ _ ?_).2
        rw [hfixed.length_headers, copying_first,
          length_memcpy _ (by rw [pkt.length_bytes, Nat.zero_add]; omega)]
        show _ = c.GetHeaderLength + 1 + n + 4
        omega

/-- **What `EncapsulateAll` returns** is the number of bytes of the PDUs that it writes. -/
theorem sum_EncapsulateAll (h : c.Ready cid) (hmax : maxlen + 12 ≤ 2 ^ 31) :
    ((c.EncapsulateAll maxlen).1.map List.length).sum = c.sendlen maxlen := by
  have hpad := h.padding
  unfold EncapsulateAll sendlen
  cases hpkt : c.qPkt with
  | none =>
    exact (Nat.zero_add _).symm.trans (sum_encapsulateQueue h.toFixed (Nat.zero_le maxlen) hmax)
  | some pkt =>
    have hleft : c.qLen < pkt.pkt_getlen := h.left pkt hpkt
    dsimp only
    by_cases hroom : c.GetHeaderLength + 1 + c.padding ≥ maxlen
    · rw [if_pos hroom, if_pos hroom]
      rfl
    · rw [if_neg hroom, if_neg hroom]
      by_cases hlast : c.GetHeaderLength + 1 + pkt.pkt_getlen - c.qLen + c.padding ≤ maxlen
      · -- the last fragment, then the queue
        rw [if_pos hlast, if_pos hlast]
        generalize hpdulen : c.GetHeaderLength + 1 + pkt.pkt_getlen - c.qLen + c.padding = pdulen
          at hlast ⊢
        have hn : pdulen - (c.GetHeaderLength + 1) - c.padding = pkt.pkt_getlen - c.qLen := by omega
        rw [hn]
        set built : Connection k := { c with FC := .frgLast, qPkt := none, qLen := 0 } with hbuilt
        have hfixed : built.Fixed cid := ⟨h.CRCIndicator, h.type, h.cid, h.FSN⟩
        obtain ⟨-, hlen⟩ := hfixed.carries
          (k.copying.last pkt.toPacket c.qLen (pkt.pkt_getlen - c.qLen)) pdulen (by
            rw [hfixed.length_headers, copying_last pkt (by omega),
              length_memcpy _ (by rw [pkt.length_bytes]; omega)]
            show _ = c.GetHeaderLength + 1 + _ + 4
            omega)
        rw [List.map_cons, List.sum_cons, hlen]
        exact sum_encapsulateQueue (hfixed.built _ _) hlast hmax
      · -- a fragment from the middle fills the burst
        rw [if_neg hlast, if_neg hlast, Nat.mod_eq_of_lt (by omega), List.map_singleton, List.sum_singleton]
        generalize hn : maxlen - (c.GetHeaderLength + 1) - c.padding = n
        set built : Connection k := { c with FC := .frgMiddle, qLen := c.qLen + n } with hbuilt
        have hfixed : built.Fixed cid := ⟨h.CRCIndicator, h.type, h.cid, h.FSN⟩
        refine (hfixed.carries _ _ ?_).2
        rw [hfixed.length_headers, copying_middle, length_memcpy _ (by rw [pkt.length_bytes]; omega)]
        show _ = c.GetHeaderLength + 1 + n + 4
        omega

/-! ### A burst of all that is left -/

theorem le_headerLength (c : Connection k) : 6 ≤ c.GetHeaderLength := by
  unfold GetHeaderLength
  split <;> omega

/-- The loop over the queue, when the burst ends with the last packet. -/
theorem encapsulateQueue_all {queue : List (DataPacket k)} {sendlen : ℕ} (h : c.Fixed cid)
    (hnone : c.qPkt = none) (hqueue : c.PduQ = queue)
    (htotal : sendlen + (queue.map fun p => c.GetHeaderLength + p.pkt_getlen + c.padding).sum = maxlen)
    (hmax : maxlen < 2 ^ 31) :
    queueSendlen c.GetHeaderLength c.padding maxlen queue sendlen = maxlen ∧
      (encapsulateQueue maxlen queue sendlen c).2.Empty = true ∧
        ∀ pdu ∈ (encapsulateQueue maxlen queue sendlen c).1, fraghdr pdu = none := by
  induction queue generalizing c sendlen with
  | nil =>
    refine ⟨by simpa [queueSendlen] using htotal, ?_, fun pdu hpdu => absurd hpdu List.not_mem_nil⟩
    show c.Empty = true
    rw [Empty, hnone, hqueue]
    rfl
  | cons pkt rest ih =>
    rw [List.map_cons, List.sum_cons] at htotal
    have hhead := c.le_headerLength
    set built : Connection k := { c with FC := .frgNone, pduqlen := c.pduqlen - 1, PduQ := rest }
      with hbuilt
    have hfixed : built.Fixed cid := ⟨h.CRCIndicator, h.type, h.cid, h.FSN⟩
    have hlen : c.GetHeaderLength + pkt.pkt_getlen + c.padding =
        (built.headers (c.GetHeaderLength + pkt.pkt_getlen + c.padding)).length +
          (k.copying.whole pkt.toPacket).length + 4 := by
      rw [hfixed.length_headers, copying_whole, pkt.length_bytes, h.padding]
      rfl
    have hwhole := (hfixed.carries _ _ hlen).1.fraghdr
    rw [if_pos rfl] at hwhole
    have hsum : (sendlen + (c.GetHeaderLength + pkt.pkt_getlen + c.padding)) % 2 ^ 32 =
        sendlen + (c.GetHeaderLength + pkt.pkt_getlen + c.padding) := Nat.mod_eq_of_lt (by omega)
    have hfits : sendlen + (c.GetHeaderLength + pkt.pkt_getlen + c.padding) ≤ maxlen := by omega
    unfold queueSendlen encapsulateQueue
    dsimp only
    rw [hsum, if_pos hfits, if_pos hfits]
    by_cases hfull : maxlen ≤ sendlen + (c.GetHeaderLength + pkt.pkt_getlen + c.padding) + 6 + c.padding
    · -- one packet more would have needed more than what is left
      have hrest : rest = [] := by
        cases rest with
        | nil => rfl
        | cons next more =>
          have hpos := next.pos
          rw [List.map_cons, List.sum_cons] at htotal
          omega
      rw [if_pos hfull, if_pos hfull]
      subst hrest
      rw [List.map_nil, List.sum_nil, Nat.add_zero] at htotal
      refine ⟨htotal, ?_, ?_⟩
      · show (c.qPkt.isNone && true) = true
        rw [hnone]
        rfl
      · intro pdu hpdu
        obtain rfl := List.mem_singleton.1 hpdu
        exact hwhole
    · rw [if_neg hfull, if_neg hfull]
      obtain ⟨hsent, hempty, hmore⟩ := ih (hfixed.built _ _) hnone rfl
        ((Nat.add_assoc _ _ _).trans htotal)
      refine ⟨hsent, hempty, ?_⟩
      intro pdu hpdu
      rcases List.mem_cons.1 hpdu with rfl | hin
      · exact hwhole
      · exact hmore pdu hin

/-- **A burst of the reported total.** -/
theorem EncapsulateAll_all (h : c.Ready cid) (hmax : c.needed.sum < 2 ^ 31) :
    c.sendlen c.needed.sum = c.needed.sum ∧ (c.EncapsulateAll c.needed.sum).2.Empty = true ∧
      ∀ pdu ∈ (c.EncapsulateAll c.needed.sum).1, ∀ f ∈ fraghdr pdu, f.fc = .frgLast := by
  obtain ⟨maxlen, htotal⟩ : ∃ maxlen, c.needed.sum = maxlen := ⟨_, rfl⟩
  rw [htotal] at hmax ⊢
  rw [needed, List.sum_append] at htotal
  unfold sendlen EncapsulateAll
  cases hpkt : c.qPkt with
  | none =>
    rw [hpkt, Option.toList_none, List.map_nil, List.sum_nil] at htotal
    obtain ⟨hsent, hempty, hwhole⟩ := encapsulateQueue_all h.toFixed hpkt rfl htotal hmax
    refine ⟨hsent, hempty, ?_⟩
    intro pdu hpdu f hf
    rw [hwhole pdu hpdu] at hf
    cases hf
  | some pkt =>
    have hleft : c.qLen < pkt.pkt_getlen := h.left pkt hpkt
    have hpad := h.padding
    rw [hpkt, Option.toList_some, List.map_singleton, List.sum_singleton] at htotal
    dsimp only
    generalize hpdulen : c.GetHeaderLength + 1 + pkt.pkt_getlen - c.qLen + c.padding = pdulen
    have hroom : ¬ c.GetHeaderLength + 1 + c.padding ≥ maxlen := by omega
    have hfits : pdulen ≤ maxlen := by omega
    rw [if_neg hroom, if_neg hroom, if_pos hfits, if_pos hfits]
    have hn : pdulen - (c.GetHeaderLength + 1) - c.padding = pkt.pkt_getlen - c.qLen := by omega
    rw [hn]
    set built : Connection k := { c with FC := .frgLast, qPkt := none, qLen := 0 } with hbuilt
    have hfixed : built.Fixed cid := ⟨h.CRCIndicator, h.type, h.cid, h.FSN⟩
    have hcopy : k.copying.last pkt.toPacket c.qLen (pkt.pkt_getlen - c.qLen) = pkt.bytes.drop c.qLen := by
      rw [copying_last pkt (by omega), memcpy]
      exact List.take_of_length_le (by rw [List.length_drop, pkt.length_bytes])
    have hlen : pdulen = (built.headers pdulen).length +
        (k.copying.last pkt.toPacket c.qLen (pkt.pkt_getlen - c.qLen)).length + 4 := by
      rw [hfixed.length_headers, hcopy, List.length_drop, pkt.length_bytes]
      show _ = c.GetHeaderLength + 1 + _ + 4
      omega
    have hlast := (hfixed.carries _ _ hlen).1.fraghdr
    rw [if_neg (show built.FC ≠ .frgNone from frgStat.noConfusion)] at hlast
    have hrest : pdulen + (c.PduQ.map fun p => c.GetHeaderLength + p.pkt_getlen + c.padding).sum =
        maxlen := by omega
    obtain ⟨hsent, hempty, hwhole⟩ := encapsulateQueue_all
      (hfixed.built (k.copying.last pkt.toPacket c.qLen (pkt.pkt_getlen - c.qLen)) pdulen) rfl rfl hrest
      hmax
    refine ⟨hsent, hempty, ?_⟩
    intro pdu hpdu f hf
    rcases List.mem_cons.1 hpdu with rfl | hin
    · rw [hlast] at hf
      obtain rfl := Option.some.inj hf
      rfl
    · rw [hwhole pdu hin] at hf
      cases hf

/-! ### Runs -/

theorem new_ready (k : ConnClass) (cid src_nid : UInt16) (mesh : Bool) :
    (new k cid src_nid mesh).Ready cid where
  CRCIndicator := rfl
  type := by
    cases mesh
    · exact .inr rfl
    · exact .inl rfl
  cid := rfl
  FSN := by show 0 < 8; decide
  left p hp := by cases hp

theorem call_ready (h : c.Ready cid) (a : Call k) : (c.call a).Ready cid := by
  cases a with
  | Insert pkt => exact ⟨⟨h.CRCIndicator, h.type, h.cid, h.FSN⟩, h.left⟩
  | EncapsulateAll maxlen => exact (EncapsulateAll_sends h maxlen).ready

theorem run_ready (h : c.Ready cid) (calls : List (Call k)) : (calls.foldl call c).Ready cid := by
  induction calls generalizing c with
  | nil => exact h
  | cons a calls ih => exact ih (call_ready h a)

theorem reportAgrees_iff (h : c.Ready cid) : c.ReportAgrees ↔ c.needed.sum < 2 ^ 31 := by
  rw [ReportAgrees, GetInformation_eq]
  constructor
  · rintro ⟨total, info, hreport, -⟩
    by_contra hover
    rw [if_neg hover] at hreport
    cases hreport
  · intro hmax
    obtain ⟨hsent, hempty, hlast⟩ := EncapsulateAll_all h hmax
    exact ⟨_, _, if_pos hmax, hsent, hempty, hlast, fun maxlen _ => c.sendlen_le maxlen⟩

/-- **The report agrees in every state** in which all packets need less than 2 GiB. -/
theorem report_agrees (k : ConnClass) (cid src_nid : UInt16) (mesh : Bool) (calls : List (Call k)) :
    (calls.foldl call (new k cid src_nid mesh)).ReportAgrees ↔
      (calls.foldl call (new k cid src_nid mesh)).needed.sum < 2 ^ 31 :=
  reportAgrees_iff (run_ready (new_ready k cid src_nid mesh) calls)

/-- A packet of `n` zero bytes. -/
def zeroBytes (n : ℕ) (hpos : 0 < n) (hmax : n < 2 ^ 31) : DataPacket .DataConnection where
  dat := []
  sdat := List.replicate n 0
  split := rfl
  pos := by simpa [Packet.pkt_getlen] using hpos
  max := by simpa [Packet.pkt_getlen] using hmax

theorem needed_two (p q : DataPacket .DataConnection) :
    ([Call.Insert p, .Insert q].foldl call (new .DataConnection 5 1 false)).needed =
      [6 + p.pkt_getlen + 4, 6 + q.pkt_getlen + 4] := by
  simp [call, Insert, new, needed, GetHeaderLength, padding]

theorem pkt_getlen_zeroBytes (n : ℕ) (hpos : 0 < n) (hmax : n < 2 ^ 31) :
    (zeroBytes n hpos hmax).pkt_getlen = n := by
  simp [zeroBytes, Packet.pkt_getlen]

/-- Two packets of 1 GiB do not fit into the report. -/
theorem gib_twice_overflows :
    ¬ ([Call.Insert (zeroBytes (2 ^ 30) (by decide) (by decide)),
      .Insert (zeroBytes (2 ^ 30) (by decide) (by decide))].foldl call
        (new .DataConnection 5 1 false)).ReportAgrees := by
  rw [reportAgrees_iff (run_ready (new_ready .DataConnection 5 1 false) _), needed_two,
    pkt_getlen_zeroBytes]
  decide

end Wimax.Connection
