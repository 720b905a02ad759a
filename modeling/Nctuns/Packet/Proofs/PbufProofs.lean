import Nctuns.Packet.Pbuf
import Nctuns.Lib.Run

/-!
# The header area as a stack of bytes

`pkt_malloc` lets a header of `P_DATLEN` bytes stay in the pbuf, but the union with a pointer pads
`datbuf`, so such a header starts before `p_dbuf`, and `pkt_seek` then takes it for a position out of
bounds.
-/

namespace Packet

open Memory

/-- The padding before `datbuf`: an inline header may start before it, but not within `p_flags`. -/
theorem Abi.padding (t : Abi) :
    t.p_flags + 2 ≤ PLEN - t.P_DATLEN ∧ PLEN - t.P_DATLEN < t.p_dbuf ∧ t.p_dbuf < PLEN ∧
      t.P_DATLEN ≤ PLEN := by
  cases t <;> decide

variable {e : Env} {s s' : Pbuf} {st data : List Byte} {offset : Int}

/-- The header lies in its buffer and ends where the buffer does. -/
structure Pbuf.Fits (e : Env) (s : Pbuf) : Prop where
  nonneg : 0 ≤ s.p_len
  start : 0 ≤ s.p_dat
  ends : s.p_dat + s.p_len = s.bufEnd e
  inline : s.extend = false → s.p_len ≤ e.abi.P_DATLEN

namespace Pbuf.Fits

theorem new : (Pbuf.new e).Fits e where
  nonneg := by simp [Pbuf.new]
  start := by simp [Pbuf.new]
  ends := rfl
  inline _ := by simp [Pbuf.new]

theorem enlarge (h : s.Fits e) (hroom : s.p_len ≤ e.pcluster) : (s.enlarge e).Fits e where
  nonneg := h.nonneg
  start := by
    simp only [Pbuf.enlarge]
    omega
  ends := by
    simp only [Pbuf.enlarge, bufEnd, if_true]
    omega
  inline := by simp [Pbuf.enlarge]

/-- `pkt_malloc` makes room in front of the header, in a cluster if there is none in the pbuf. -/
theorem pkt_malloc (h : s.Fits e) {len : Nat} (hs' : s.pkt_malloc e len = .ok s') :
    ∃ t : Pbuf, (t = s ∨ t = s.enlarge e ∧ s.p_len ≤ e.pcluster) ∧ t.Fits e ∧ len ≤ t.p_dat ∧
      (t.extend = false → t.p_len + len ≤ e.abi.P_DATLEN) ∧
      s' = { t with p_len := t.p_len + len, p_tlen := u32 (t.p_tlen + len), p_dat := t.p_dat - len } := by
  have hpad := e.abi.padding
  have hnonneg := h.nonneg
  unfold Pbuf.pkt_malloc at hs'
  by_cases hfull : s.p_len + len > e.abi.P_DATLEN ∧ s.extend = false
  · simp only [if_pos hfull] at hs'
    split at hs'
    · cases hs'
    · rename_i hroom
      have hext : (s.enlarge e).extend = true := rfl
      have hdat : (s.enlarge e).p_dat = e.pcluster - s.p_len := rfl
      have hroom : len ≤ (s.enlarge e).p_dat := by
        by_contra hlt
        exact hroom ⟨by omega, hext⟩
      exact ⟨s.enlarge e, .inr ⟨rfl, by omega⟩, h.enlarge (by omega), hroom, by simp [hext],
        (Except.ok.inj hs').symm⟩
  · simp only [if_neg hfull] at hs'
    split at hs'
    · cases hs'
    · rename_i hroom
      refine ⟨s, .inl rfl, h, ?_, fun hs => ?_, (Except.ok.inj hs').symm⟩
      · have hends := h.ends
        cases hs : s.extend with
        | true =>
          by_contra hlt
          exact hroom ⟨by omega, hs⟩
        | false =>
          simp only [bufEnd, hs, Bool.false_eq_true, if_false] at hends
          have hfits : ¬ s.p_len + len > e.abi.P_DATLEN := fun hgt => hfull ⟨hgt, hs⟩
          omega
      · exact Int.not_lt.1 fun hgt => hfull ⟨hgt, hs⟩

/-- What `pkt_prepend` leaves of the pbuf's members. -/
theorem pkt_prepend (h : s.Fits e) (hs' : s.pkt_prepend e data = .ok s') :
    s'.Fits e ∧ s'.p_len = s.p_len + data.length ∧ s'.p_tlen = u32 (s.p_tlen + data.length) := by
  unfold Pbuf.pkt_prepend at hs'
  split at hs'
  · rename_i t ht
    obtain rfl := Except.ok.inj hs'
    obtain ⟨t, hts, hfits, hroom, hinline, rfl⟩ := h.pkt_malloc ht
    have hsame : t.p_len = s.p_len ∧ t.p_tlen = s.p_tlen := by
      rcases hts with rfl | ⟨rfl, -⟩ <;> exact ⟨rfl, rfl⟩
    obtain ⟨hlen, htlen⟩ := hsame
    have hnonneg := hfits.nonneg
    have hends := hfits.ends
    refine ⟨⟨?_, ?_, ?_, hinline⟩, by simp only [hlen], by simp only [htlen]⟩
    · simp only
      omega
    · simp only
      omega
    · simp only [bufEnd] at hends ⊢
      omega
  · cases hs'

/-- A seek moves the start of the header by some distance and its length with it, unless it ends before
    `p_dbuf`: the distance asked for if that is within the header, else one that ends at a bound. -/
theorem pkt_seek_eq (h : s.Fits e) (hd : s.extend = false → e.abi.p_dbuf ≤ s.p_dat + offset) :
    ∃ o, s.pkt_seek e offset =
        { s with p_dat := s.p_dat + o, p_len := s.p_len - o, p_tlen := u32 (s.p_tlen - o) } ∧
      0 ≤ s.p_dat + o ∧ s.p_dat + o ≤ s.bufEnd e ∧
      (s.extend = false → e.abi.p_dbuf ≤ s.p_dat + o) ∧
      (0 ≤ offset ∧ offset ≤ s.p_len → o = offset) := by
  have hpad := e.abi.padding
  have hstart := h.start
  cases hs : s.extend with
  | true =>
    have hcluster : s.p_dat + s.p_len = e.pcluster := by simpa [bufEnd, hs] using h.ends
    simp only [pkt_seek, bufEnd, hs, if_true]
    by_cases hend : s.p_dat + offset ≥ e.pcluster
    · refine ⟨s.p_len, ?_, by omega, by omega, by simp, by omega⟩
      rw [if_pos hend, hcluster, Int.sub_self]
    · rw [if_neg hend]
      by_cases hneg : s.p_dat + offset < 0
      · refine ⟨-s.p_dat, ?_, by omega, by omega, by simp, by omega⟩
        have hlen : s.p_len - -s.p_dat = e.pcluster := by omega
        rw [if_pos hneg, hlen, Int.sub_neg, Int.add_right_neg]
      · exact ⟨offset, by rw [if_neg hneg], by omega, by omega, by simp, fun _ => rfl⟩
  | false =>
    have hpbuf : s.p_dat + s.p_len = PLEN := by simpa [bufEnd, hs] using h.ends
    have hd := hd hs
    simp only [pkt_seek, bufEnd, hs, Bool.false_eq_true, if_false]
    by_cases hend : s.p_dat + offset ≥ PLEN
    · refine ⟨s.p_len, ?_, by omega, by omega, fun _ => by omega, by omega⟩
      rw [if_pos hend, hpbuf, Int.sub_self]
    · have hdat : ¬ s.p_dat + offset < e.abi.p_dbuf := by omega
      exact ⟨offset, by rw [if_neg hend, if_neg hdat], by omega, by omega, fun _ => hd, fun _ => rfl⟩

theorem pkt_seek (h : s.Fits e) (hd : s.extend = false → e.abi.p_dbuf ≤ s.p_dat + offset) :
    (s.pkt_seek e offset).Fits e := by
  obtain ⟨o, heq, hstart, hend, hdat, -⟩ := h.pkt_seek_eq hd
  have hpad := e.abi.padding
  have hends := h.ends
  rw [heq]
  refine ⟨?_, hstart, ?_, fun hs => ?_⟩
  · simp only
    omega
  · simp only [bufEnd] at hends ⊢
    omega
  · have hs : s.extend = false := hs
    have hdat := hdat hs
    simp only [bufEnd, hs, Bool.false_eq_true, if_false] at hends ⊢
    omega

end Pbuf.Fits

/-! ## The bytes -/

/-- The header of `s` is the stack `st`. -/
structure Pbuf.Holds (e : Env) (s : Pbuf) (st : List Byte) : Prop where
  fits : s.Fits e
  len : s.p_len = st.length
  bytes : ∀ k, (hk : k < st.length) → s.buf (s.p_dat.toNat + k) = st[k]

namespace Pbuf.Holds

theorem new : (Pbuf.new e).Holds e [] where
  fits := .new
  len := rfl
  bytes k hk := absurd hk (by simp)

theorem headerExact (h : s.Holds e st) : HeaderExact e (s, st) where
  len := h.len
  ends := h.fits.ends
  header := by
    have hlen : s.p_len.toNat = st.length := by rw [h.len, Int.toNat_natCast]
    rw [header, hlen]
    exact read_eq h.bytes

/-- A header that is moved to a cluster is the same. -/
theorem enlarge (h : s.Holds e st) (hroom : s.p_len ≤ e.pcluster) : (s.enlarge e).Holds e st where
  fits := h.fits.enlarge hroom
  len := h.len
  bytes k hk := by
    have hlen := h.len
    simp only [Pbuf.enlarge]
    rw [copy_inside (by omega) (by omega), Nat.add_sub_cancel_left]
    exact h.bytes k hk

/-- `pkt_prepend` pushes bytes. -/
theorem pkt_prepend (h : s.Holds e st) (hs' : s.pkt_prepend e data = .ok s') :
    s'.Holds e (data ++ st) := by
  obtain ⟨hfits, hlen, -⟩ := h.fits.pkt_prepend hs'
  refine ⟨hfits, ?_, ?_⟩
  · rw [hlen, h.len, List.length_append]
    omega
  · unfold Pbuf.pkt_prepend at hs'
    split at hs'
    · rename_i t ht
      obtain rfl := Except.ok.inj hs'
      obtain ⟨t, hts, -, hroom, -, rfl⟩ := h.fits.pkt_malloc ht
      have htst : t.Holds e st := by
        rcases hts with rfl | ⟨rfl, hcluster⟩
        · exact h
        · exact h.enlarge hcluster
      intro k hk
      simp only
      by_cases hk' : k < data.length
      · rw [copy_inside (by omega) (by omega), Nat.add_sub_cancel_left, ofList_of_lt hk',
          List.getElem_append_left hk']
      · have hk : k < data.length + st.length := by simpa using hk
        have hshift : (t.p_dat - data.length).toNat + k = t.p_dat.toNat + (k - data.length) := by omega
        rw [copy_outside (by omega), hshift, htst.bytes _ (by omega),
          List.getElem_append_right (by omega)]
    · cases hs'

/-- `pkt_seek` within the header skips bytes, unless it ends before `p_dbuf`. -/
theorem pkt_seek (h : s.Holds e st) (h0 : 0 ≤ offset) (hle : offset ≤ s.p_len)
    (hd : s.extend = false → e.abi.p_dbuf ≤ s.p_dat + offset) :
    (s.pkt_seek e offset).Holds e (st.drop offset.toNat) := by
  obtain ⟨o, heq, -, -, -, ho⟩ := h.fits.pkt_seek_eq hd
  obtain rfl := ho ⟨h0, hle⟩
  have hlen := h.len
  have hstart := h.fits.start
  refine ⟨h.fits.pkt_seek hd, ?_, fun k hk => ?_⟩
  · rw [heq, List.length_drop]
    simp only
    omega
  · have hk : k < st.length - o.toNat := by simpa using hk
    have hshift : (s.p_dat + o).toNat + k = s.p_dat.toNat + (o.toNat + k) := by omega
    simp only [heq, hshift]
    rw [h.bytes _ (by omega), List.getElem_drop]

end Pbuf.Holds

/-- A seek to a position before `p_dbuf` loses the end of the buffer. -/
theorem Pbuf.pkt_seek_before (hs : s.extend = false)
    (hd : s.p_dat + offset < e.abi.p_dbuf) :
    (s.pkt_seek e offset).p_dat + (s.pkt_seek e offset).p_len ≠ (s.pkt_seek e offset).bufEnd e := by
  have hpad := e.abi.padding
  have hbehind : ¬ s.p_dat + offset ≥ PLEN := by omega
  simp only [Pbuf.pkt_seek, hs, Bool.false_eq_true, if_false, if_neg hbehind, if_pos hd, bufEnd]
  omega

/-! ## Runs -/

open Run in
/-- **The byte stack.** The header is exact in every state of a run exactly if no seek in an inline
    header ends before `p_dbuf`. -/
theorem run_headerExact_iff (e : Env) (calls : List HeaderCall)
    (hin : Along (HeaderCall.run e) SeeksWithin (Pbuf.new e, []) calls) :
    Always (HeaderCall.run e) (HeaderExact e) (Pbuf.new e, []) calls ↔
      Along (HeaderCall.run e) (SeeksToDatbuf e) (Pbuf.new e, []) calls := by
  refine always_iff_along (I := fun s => s.1.Holds e s.2) (D := SeeksWithin)
    (fun s h => h.headerExact) ?_ ?_ ?_ Pbuf.Holds.new hin
  · rintro ⟨s, st⟩ (data | offset) s' h hin hs' hd
    · cases hp : s.pkt_prepend e data with
      | error x =>
        simp only [HeaderCall.run, hp] at hs'
        cases hs'
      | ok t =>
        simp only [HeaderCall.run, hp] at hs'
        obtain rfl := Except.ok.inj hs'
        exact h.pkt_prepend hp
    · obtain rfl := Except.ok.inj hs'
      exact h.pkt_seek hin.1 hin.2 hd
  · rintro ⟨s, st⟩ (data | offset) s' h hin hs' hP
    · trivial
    · obtain rfl := Except.ok.inj hs'
      intro hs
      by_contra hlt
      exact Pbuf.pkt_seek_before hs (by omega) hP.ends
  · rintro ⟨s, st⟩ (data | offset) x h hin hs'
    · trivial
    · cases hs'

/-- A header of 94 bytes fits the pbuf on i386, but a seek by 0 bytes takes its first two. -/
theorem seek_loses_bytes :
    ¬ Run.Always (HeaderCall.run ⟨.i386, 1024, fun _ => 0⟩) (HeaderExact ⟨.i386, 1024, fun _ => 0⟩)
      (Pbuf.new ⟨.i386, 1024, fun _ => 0⟩, []) [.pkt_prepend (List.replicate 94 1), .pkt_seek 0] := by
  intro h
  obtain ⟨⟨s, st⟩, hP, hs⟩ := h.exec_map (f := fun s => (s.1.p_dat, s.1.p_len, s.1.extend))
    (b := (36, 94, false)) (by decide +kernel)
  simp only [Prod.mk.injEq] at hs
  obtain ⟨hdat, hlen, hext⟩ := hs
  have hends := hP.ends
  simp only [Pbuf.bufEnd, hdat, hlen, hext, Bool.false_eq_true, if_false, PLEN] at hends
  exact absurd hends (by decide)

/-- Pushes and skips in the pbuf, up to its limit, and in the cluster. -/
theorem run_headerExact_iff_extended :
    Run.Always (HeaderCall.run ⟨.i386, 1024, fun _ => 7⟩) (HeaderExact ⟨.i386, 1024, fun _ => 7⟩)
        (Pbuf.new ⟨.i386, 1024, fun _ => 7⟩, [])
        [.pkt_prepend (List.replicate 94 1), .pkt_seek 2, .pkt_prepend [1, 2, 3], .pkt_seek 1] ↔
      Run.Along (HeaderCall.run ⟨.i386, 1024, fun _ => 7⟩) (SeeksToDatbuf ⟨.i386, 1024, fun _ => 7⟩)
        (Pbuf.new ⟨.i386, 1024, fun _ => 7⟩, [])
        [.pkt_prepend (List.replicate 94 1), .pkt_seek 2, .pkt_prepend [1, 2, 3], .pkt_seek 1] :=
  run_headerExact_iff _ _ (by decide +kernel)

end Packet
