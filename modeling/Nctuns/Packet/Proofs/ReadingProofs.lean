import Nctuns.Packet.Proofs.StoreProofs
import Nctuns.Packet.Reading

/-!
# Correctness of reading a packet back

`pkt_aggregate` merges an inline header with the shared data, but gives up on a header in a cluster of
its own; `pkt_get` finds a header, but not the shared data alone.
-/

set_option linter.unusedSectionVars false

namespace Packet

open Memory

variable {π σ : Type*} [DecidableEq π] [DecidableEq σ] {e : Env} {s s' : Store π σ} {p : π} {a : σ}
  {c : Nat → Byte} {len : Int}

/-! ## A packet whose lengths are right -/

/-- What reading the packet at `p` relies on. -/
structure Readable (e : Env) (s : Store π σ) (p : π) : Prop where
  live : p ∈ s.live
  sound : Store.Sound e s
  nonneg : 0 ≤ s.sharedLen (s.pkt p)
  small : (s.pkt p).hdr.p_len + s.sharedLen (s.pkt p) < 2 ^ 32

namespace Readable

theorem tlen (h : Readable e s p) :
    (s.pkt p).hdr.p_tlen = (s.pkt p).hdr.p_len + s.sharedLen (s.pkt p) := by
  have hnonneg := ((h.sound.pkts p h.live).fits).nonneg
  have hs := h.nonneg
  have hsmall := h.small
  rw [(h.sound.pkts p h.live).tlen, u32]
  omega

theorem fits (h : Readable e s p) : (s.pkt p).hdr.Fits e := (h.sound.pkts p h.live).fits

/-- The packet uses the pbuf at `a`. -/
theorem deref (h : Readable e s p) (hs : (s.pkt p).shares = some a) :
    (s.pkt p).withShared = true ∧ (s.pkt p).p_sptr = some a ∧ a ∈ s.alloc := by
  obtain ⟨ht, hptr⟩ := Pkt.shares_eq_some.1 hs
  exact ⟨ht, hptr, (h.sound.counts.freed a).2
    (Finset.card_ne_zero_of_mem (Store.mem_sharers.2 ⟨h.live, hs⟩))⟩

theorem not_withShared (h : Readable e s p) (hs : (s.pkt p).shares = none) :
    (s.pkt p).withShared = false := by
  by_contra hne
  obtain ⟨a, ha, -⟩ := h.sound.using h.live (Bool.eq_true_of_not_eq_false hne)
  simp [hs] at ha

end Readable

namespace Store

theorem fill_of_none (hs : (s.pkt p).shares = none) : s.fill p c = s := by
  simp [fill, hs]

theorem fill_of_shares (hs : (s.pkt p).shares = some a) :
    s.fill p c = s.setShared a { s.sbuf a with p_cluster := c } := by
  simp [fill, hs]

theorem payload_of_none {t : Pkt σ} (hs : t.shares = none) : s.payload e t = [] := by
  simp [payload, hs]

theorem payload_of_shares {t : Pkt σ} (hs : t.shares = some a) :
    s.payload e t = read (fun k => (s.sbuf a).p_cluster (e.abi.P_DATLEN + k)) (s.sbuf a).p_len.toNat := by
  simp [payload, hs]

theorem header_of_len_zero (hlen : (s.pkt p).hdr.p_len = 0) : (s.pkt p).hdr.header = [] := by
  simp [Pbuf.header, hlen]

/-! ## `pkt_get` -/

theorem pkt_get_iff (h : Readable e s p) :
    (s.data e p ≠ [] → s.pkt_get p = .ok (s.dataStart e p)) ↔
      ((s.pkt p).hdr.p_len = 0 → s.sharedLen (s.pkt p) = 0) := by
  have hnonneg := h.fits.nonneg
  have hshared := h.nonneg
  by_cases hlen : (s.pkt p).hdr.p_len > 0
  · refine iff_of_true (fun _ => ?_) fun h0 => by omega
    rw [pkt_get, dataStart, if_pos hlen, if_pos hlen]
  · have hlen0 : (s.pkt p).hdr.p_len = 0 := by omega
    have hheader := header_of_len_zero hlen0
    cases hs : (s.pkt p).shares with
    | none =>
      refine iff_of_true (fun hne => absurd ?_ hne) fun _ => sharedLen_of_none hs
      rw [data, hheader, payload_of_none hs]
      rfl
    | some a =>
      obtain ⟨ht, hptr, halloc⟩ := h.deref hs
      rw [sharedLen_of_shares hs] at hshared ⊢
      have hdata : s.data e p = [] ↔ (s.sbuf a).p_len = 0 := by
        rw [data, hheader, List.nil_append, payload_of_shares hs, ← List.length_eq_zero_iff, length_read]
        omega
      have hget : s.pkt_get p = .ok (if (s.sbuf a).p_len > 0 then .sbuf a PLEN else .null) := by
        rw [pkt_get, if_neg hlen, if_pos ht, hptr, deref_of_mem halloc]
      have hstart : s.dataStart e p = .cluster a e.abi.P_DATLEN := by
        rw [dataStart, if_neg hlen, hs]
        rfl
      rw [hget, hstart, ne_eq, hdata]
      constructor
      · intro hp _
        by_contra hne
        have hptr := hp hne
        rw [if_pos (by omega)] at hptr
        cases hptr
      · exact fun h0 hne => absurd (h0 hlen0) hne

/-! ## `pkt_aggregate` -/

theorem aggregate_of_none (h : Readable e s p) (hs : (s.pkt p).shares = none) :
    ∃ ptr s', s.pkt_aggregate e p = .ok (ptr, s') ∧
      s'.bytesAt p ptr (s.pkt p).hdr.p_tlen = s.data e p := by
  have htlen := h.tlen
  rw [sharedLen_of_none hs, Int.add_zero] at htlen
  by_cases h0 : (s.pkt p).hdr.p_tlen = 0
  · refine ⟨.null, s, by rw [pkt_aggregate, if_pos h0], ?_⟩
    rw [data, header_of_len_zero (by omega), payload_of_none hs]
    rfl
  · refine ⟨.header (s.pkt p).hdr.p_dat, s, ?_, ?_⟩
    · rw [pkt_aggregate, if_neg h0, if_pos (h.not_withShared hs)]
    · have hlen : (s.pkt p).hdr.p_tlen = (s.pkt p).hdr.p_len.toNat := by omega
      rw [data, payload_of_none hs, List.append_nil, hlen]
      rfl

/-- What `pkt_aggregate` does with shared data and a header in front of it. -/
theorem aggregate_of_shares (h : Readable e s p) (hs : (s.pkt p).shares = some a)
    (hne : (s.pkt p).hdr.p_tlen ≠ 0) :
    s.pkt_aggregate e p =
      if (s.pkt p).hdr.p_len = 0 then .ok (.cluster a e.abi.P_DATLEN, s)
      else if (s.pkt p).hdr.extend = false then
        .ok (.cluster a (e.abi.P_DATLEN - (s.pkt p).hdr.p_len), s.setShared a { s.sbuf a with
          p_cluster := Memory.copy (s.sbuf a).p_cluster (e.abi.P_DATLEN - (s.pkt p).hdr.p_len).toNat
            (fun k => (s.pkt p).hdr.buf ((s.pkt p).hdr.p_dat.toNat + k)) (s.pkt p).hdr.p_len.toNat })
      else .ok (.cluster a e.abi.P_DATLEN, s) := by
  obtain ⟨ht, hptr, halloc⟩ := h.deref hs
  rw [pkt_aggregate, if_neg hne, if_neg (by simp [ht]), hptr, deref_of_mem halloc]

/-- Shared data, with an inline header in front of it or none. -/
theorem aggregate_inline (h : Readable e s p) (hs : (s.pkt p).shares = some a)
    (hin : (s.pkt p).hdr.extend = true → (s.pkt p).hdr.p_len = 0) :
    ∃ ptr s', s.pkt_aggregate e p = .ok (ptr, s') ∧
      s'.bytesAt p ptr (s.pkt p).hdr.p_tlen = s.data e p := by
  have htlen := h.tlen
  have hnonneg := h.fits.nonneg
  have hshared := h.nonneg
  rw [sharedLen_of_shares hs] at htlen hshared
  have hlens : (s.pkt p).hdr.p_tlen = (s.pkt p).hdr.p_len.toNat + (s.sbuf a).p_len.toNat := by omega
  by_cases h0 : (s.pkt p).hdr.p_tlen = 0
  · refine ⟨.null, s, by rw [pkt_aggregate, if_pos h0], ?_⟩
    have hzero : (s.sbuf a).p_len.toNat = 0 := by omega
    rw [data, header_of_len_zero (by omega), payload_of_shares hs, hzero]
    rfl
  by_cases hlen : (s.pkt p).hdr.p_len = 0
  · refine ⟨.cluster a e.abi.P_DATLEN, s, by rw [aggregate_of_shares h hs h0, if_pos hlen], ?_⟩
    rw [data, header_of_len_zero hlen, payload_of_shares hs, hlens, hlen]
    simp [bytesAt]
  · have hext : (s.pkt p).hdr.extend = false := by
      by_contra hne
      exact hlen (hin (Bool.eq_true_of_not_eq_false hne))
    have hroom := h.fits.inline hext
    refine ⟨_, _, by rw [aggregate_of_shares h hs h0, if_neg hlen, if_pos hext], ?_⟩
    rw [data, payload_of_shares hs, hlens, bytesAt, read_add]
    congr 1
    · refine read_congr fun k hk => ?_
      simp only [sbuf_setShared_self]
      rw [copy_inside (by omega) (by omega), Nat.add_sub_cancel_left]
    · refine read_congr fun k hk => ?_
      simp only [sbuf_setShared_self]
      rw [copy_outside (by omega)]
      congr 1
      omega

/-- A header in a cluster of its own is left out. -/
theorem aggregate_extended (h : Readable e s p) (hs : (s.pkt p).shares = some a)
    (hext : (s.pkt p).hdr.extend = true) (hlen : 0 < (s.pkt p).hdr.p_len)
    (hc : (s.sbuf a).p_cluster e.abi.P_DATLEN ≠ (s.pkt p).hdr.buf (s.pkt p).hdr.p_dat.toNat) :
    ¬ ∃ ptr s', s.pkt_aggregate e p = .ok (ptr, s') ∧
      s'.bytesAt p ptr (s.pkt p).hdr.p_tlen = s.data e p := by
  rintro ⟨ptr, s', hagg, hbytes⟩
  have htlen := h.tlen
  have hshared := h.nonneg
  rw [aggregate_of_shares h hs (by omega), if_neg (by omega), if_neg (by simp [hext])] at hagg
  obtain ⟨rfl, rfl⟩ := Prod.mk.inj (Except.ok.inj hagg)
  have hhead := congrArg List.head? hbytes
  rw [bytesAt, head?_read (by omega), data, List.head?_append, Pbuf.header, head?_read (by omega)] at hhead
  exact hc (Option.some.inj hhead)

end Store

/-! ## Every content of the shared data -/

open Store

theorem Readable.fill (h : Readable e s p) (c : Nat → Byte) : Readable e (s.fill p c) p := by
  cases hs : (s.pkt p).shares with
  | none => rwa [fill_of_none hs]
  | some a =>
    obtain ⟨-, -, halloc⟩ := h.deref hs
    rw [fill_of_shares hs]
    have hlen : (s.setShared a { s.sbuf a with p_cluster := c }).sharedLen (s.pkt p) =
        s.sharedLen (s.pkt p) := sharedLen_setShared fun _ => rfl
    refine ⟨h.live, ⟨h.sound.counts.congr (Finset.insert_eq_of_mem halloc) (fun b _ => ?_) fun _ => rfl,
      fun q hq => (h.sound.pkts q hq).setShared fun _ => rfl⟩, ?_, ?_⟩
    · by_cases hba : b = a
      · rw [hba, sbuf_setShared_self]
      · rw [sbuf_setShared_of_ne hba]
    · rw [pkt_setShared, hlen]
      exact h.nonneg
    · rw [pkt_setShared, hlen]
      exact h.small

/-- **Reading a packet.** It reads back exactly if its data is in one place. -/
theorem Readable.readsBack_iff (h : Readable e s p) : ReadsBack e s p ↔ InOnePlace s (s.pkt p) := by
  constructor
  · intro hr
    refine ⟨fun hext hlen => ?_, (pkt_get_iff h).1 hr.get⟩
    by_contra hne
    obtain ⟨a, hs⟩ := Option.ne_none_iff_exists'.1 hne
    have hr := hr.aggregate fun _ => (s.pkt p).hdr.buf (s.pkt p).hdr.p_dat.toNat + 1
    have hfill := h.fill fun _ => (s.pkt p).hdr.buf (s.pkt p).hdr.p_dat.toNat + 1
    rw [fill_of_shares hs] at hr hfill
    refine aggregate_extended hfill hs hext hlen ?_ hr
    rw [sbuf_setShared_self]
    simp
  · intro ho
    refine ⟨fun c => ?_, (pkt_get_iff h).2 ho.headed⟩
    have hfill := h.fill c
    cases hs : (s.pkt p).shares with
    | none =>
      rw [fill_of_none hs] at hfill ⊢
      exact aggregate_of_none hfill hs
    | some a =>
      rw [fill_of_shares hs] at hfill ⊢
      refine aggregate_inline hfill hs fun hext => ?_
      have hnonneg := h.fits.nonneg
      have hlen : ¬ 0 < (s.pkt p).hdr.p_len := by
        intro hlen
        simpa [hs] using ho.extended hext hlen
      rw [pkt_setShared]
      omega

/-! ## Runs -/

/-- The store while the packet at `p` is built. -/
structure Built (e : Env) (p : π) (s : Store π σ) : Prop where
  sound : Sound e s
  live : s.live = {p}
  shared : ∀ a ∈ s.alloc, 0 ≤ (s.sbuf a).p_len ∧
    (s.sbuf a).p_len + e.abi.P_DATLEN + RESV ≤ (s.sbuf a).size ∧ (s.sbuf a).size < 2 ^ 31

theorem Built.readable (h : Built e p s) (hcluster : e.pcluster < 2 ^ 31) : Readable e s p := by
  have hp : p ∈ s.live := by simp [h.live]
  have hlen : 0 ≤ s.sharedLen (s.pkt p) ∧ s.sharedLen (s.pkt p) < 2 ^ 31 := by
    cases hs : (s.pkt p).shares with
    | none => simp [sharedLen_of_none hs]
    | some a =>
      have halloc : a ∈ s.alloc := (h.sound.counts.freed a).2
        (Finset.card_ne_zero_of_mem (mem_sharers.2 ⟨hp, hs⟩))
      obtain ⟨h0, hsize, hint⟩ := h.shared a halloc
      rw [sharedLen_of_shares hs]
      omega
  have hfits := (h.sound.pkts p hp).fits
  have hends := hfits.ends
  have hstart := hfits.start
  have hplen : PLEN = 128 := rfl
  refine ⟨hp, h.sound, hlen.1, ?_⟩
  unfold Pbuf.bufEnd at hends
  split at hends <;> omega

/-- The only packet is the only sharer. -/
theorem Built.refcnt (h : Built e p s) (hs : (s.pkt p).shares = some a) : (s.sbuf a).p_refcnt = 1 := by
  have hp : p ∈ s.live := by simp [h.live]
  have hmem : p ∈ s.sharers a := mem_sharers.2 ⟨hp, hs⟩
  have hcard : (s.sharers a).card ≠ 0 := Finset.card_ne_zero_of_mem hmem
  have hle : (s.sharers a).card ≤ 1 := by
    have hsub := Finset.card_le_card (Finset.filter_subset (fun q => (s.pkt q).shares = some a) s.live)
    rwa [h.live, Finset.card_singleton, ← h.live] at hsub
  rw [h.sound.counts.refcnt a ((h.sound.counts.freed a).2 hcard)]
  omega

theorem Built.pkt_sattach (h : Built e p s) (hsound : Sound e (s.pkt_sattach e p len a).2)
    (h0 : 0 ≤ len) (hlen : len + e.abi.P_DATLEN + RESV < 2 ^ 31) :
    Built e p (s.pkt_sattach e p len a).2 := by
  unfold Store.pkt_sattach at hsound ⊢
  split_ifs with ht
  · exact h
  · rw [if_neg ht] at hsound
    refine ⟨hsound, by simp [h.live], fun b hb => ?_⟩
    by_cases hba : b = a
    · rw [hba, sbuf_put, sbuf_setShared_self]
      simp only [sget]
      omega
    · rw [sbuf_put, sbuf_setShared_of_ne hba]
      exact h.shared b ((Finset.mem_insert.1 hb).resolve_left hba)

theorem Built.pkt_sprepend (h : Built e p s) {data : Ptr σ} {r : Int} (hsound : Sound e s')
    (h0 : 0 ≤ len) (hlen : ∀ a ∈ (s.pkt p).shares,
      (s.sbuf a).p_len + len + e.abi.P_DATLEN + RESV ≤ (s.sbuf a).size)
    (hs' : s.pkt_sprepend e p data len = .ok (r, s')) : Built e p s' := by
  unfold Store.pkt_sprepend at hs'
  by_cases ht : (s.pkt p).withShared = true
  · obtain ⟨a, hsh, -, halloc, -, hderef⟩ := h.sound.using (by simp [h.live]) ht
    rw [if_pos ht, hderef] at hs'
    simp only at hs'
    split_ifs at hs'
    · obtain ⟨-, rfl⟩ := Prod.mk.inj (Except.ok.inj hs')
      refine ⟨hsound, by simp [h.live], fun b hb => ?_⟩
      have hb : b ∈ s.alloc := by simpa [Finset.insert_eq_of_mem halloc] using hb
      obtain ⟨hb0, hbsize, hbint⟩ := h.shared b hb
      by_cases hba : b = a
      · subst hba
        have hlen := hlen b hsh
        rw [sbuf_put, sbuf_setShared_self]
        simp only
        omega
      · rw [sbuf_put, sbuf_setShared_of_ne hba]
        exact ⟨hb0, hbsize, hbint⟩
    · obtain ⟨-, rfl⟩ := Prod.mk.inj (Except.ok.inj hs')
      exact h
  · rw [if_neg ht] at hs'
    obtain ⟨-, rfl⟩ := Prod.mk.inj (Except.ok.inj hs')
    exact h

theorem Built.careful (h : Built e p s) {c : Call π σ} (hb : Builds p c) (hd : SeeksInBounds e s c) :
    Careful e s c := by
  cases c with
  | pkt_seek q offset => exact hd
  | pkt_sprepend q data len =>
    obtain rfl : q = p := hb
    exact fun a ha _ => .inl (h.refcnt ha)
  | pkt_prepend q data => trivial
  | pkt_sattach q len a => trivial
  | new q => trivial
  | delete q => trivial
  | copy q r => exact hb.elim
  | pkt_sdeattach q => exact hb.elim

theorem Built.call (h : Built e p s) {c : Call π σ} (hallowed : Allowed s c) (hb : Builds p c)
    (hw : WithinAttached e s c) (hd : SeeksInBounds e s c) (hs' : s.call e c = .ok s') :
    Built e p s' := by
  have hsound := h.sound.call hallowed (h.careful hb hd) hs'
  have hput : insert p s.live = {p} := by simp [h.live]
  cases c with
  | pkt_seek q offset =>
    obtain rfl : q = p := hb
    obtain rfl := Except.ok.inj hs'
    exact ⟨hsound, hput, h.shared⟩
  | pkt_prepend q data =>
    obtain rfl : q = p := hb
    obtain ⟨hdr, -, rfl⟩ := pkt_prepend_eq_ok hs'
    exact ⟨hsound, hput, h.shared⟩
  | pkt_sattach q len a =>
    obtain rfl : q = p := hb
    obtain rfl := Except.ok.inj hs'
    exact h.pkt_sattach hsound hw.1 hw.2
  | pkt_sprepend q data len =>
    obtain rfl : q = p := hb
    obtain ⟨⟨r, t⟩, ht, rfl⟩ := Outcome.of_map_eq_ok hs'
    exact h.pkt_sprepend hsound hw.1 hw.2 ht
  | new q => exact hb.elim
  | copy q r => exact hb.elim
  | delete q => exact hb.elim
  | pkt_sdeattach q => exact hb.elim

theorem built_new (pkt : π → Pkt σ) (sbuf : σ → SharedBuf) :
    Built e p ((Store.empty pkt sbuf).new e p) where
  sound := (sound_empty pkt sbuf).new (by simp [empty])
  live := by simp [Store.new, empty]
  shared a ha := absurd ha (by simp [Store.new, empty])

open Run in
/-- **Reading back.** A packet built by any calls whose seeks stay in bounds reads back exactly if its
    data is in one place. -/
theorem run_readsBack_iff (e : Env) (hcluster : e.pcluster < 2 ^ 31) (pkt : π → Pkt σ)
    (sbuf : σ → SharedBuf) (p : π) (calls : List (Call π σ)) (hb : ∀ c ∈ calls, Builds p c)
    (hallowed : Along (Store.call e) Allowed ((Store.empty pkt sbuf).new e p) calls)
    (hwithin : Along (Store.call e) (WithinAttached e) ((Store.empty pkt sbuf).new e p) calls)
    (hseeks : Along (Store.call e) (SeeksInBounds e) ((Store.empty pkt sbuf).new e p) calls)
    (hrun : exec (Store.call e) ((Store.empty pkt sbuf).new e p) calls = .ok s) :
    ReadsBack e s p ↔ InOnePlace s (s.pkt p) := by
  have hcond := ((Along.of_forall hb _).and hallowed).and (hwithin.and hseeks)
  have hbuilt := Always.of_along (I := Built e p)
    (fun s c s' h hc hs' => h.call hc.1.2 hc.1.1 hc.2.1 hc.2.2 hs') (built_new pkt sbuf) hcond
  exact ((hbuilt.exec hrun).readable hcluster).readsBack_iff

/-- A header of 95 bytes is in a cluster of its own: `pkt_aggregate` returns the shared data alone. -/
theorem extended_header_left_out :
    ∃ s, Run.exec (Store.call ⟨.i386, 1024, fun _ => 0⟩)
        ((Store.empty (fun _ : Fin 1 => ⟨Pbuf.new ⟨.i386, 1024, fun _ => 0⟩, false, none⟩)
          (fun _ : Fin 1 => ⟨0, 0, 0, fun _ => 0⟩)).new ⟨.i386, 1024, fun _ => 0⟩ 0)
        [.pkt_prepend 0 (List.replicate 95 1), .pkt_sattach 0 10 0, .pkt_sprepend 0 (.cluster 0 94) 10] =
          .ok s ∧
      ¬ ReadsBack ⟨.i386, 1024, fun _ => 0⟩ s 0 := by
  have hrun : ∃ s, Run.exec (Store.call ⟨.i386, 1024, fun _ => 0⟩)
      ((Store.empty (fun _ : Fin 1 => ⟨Pbuf.new ⟨.i386, 1024, fun _ => 0⟩, false, none⟩)
        (fun _ : Fin 1 => ⟨0, 0, 0, fun _ => 0⟩)).new ⟨.i386, 1024, fun _ => 0⟩ 0)
      [.pkt_prepend 0 (List.replicate 95 1), .pkt_sattach 0 10 0, .pkt_sprepend 0 (.cluster 0 94) 10] =
        .ok s ∧
      (((s.fill 0 fun _ => 0).pkt_aggregate ⟨.i386, 1024, fun _ => 0⟩ 0).map fun r =>
          (r.2.bytesAt 0 r.1 ((s.fill 0 fun _ => 0).pkt 0).hdr.p_tlen).head?,
        ((s.fill 0 fun _ => 0).data ⟨.i386, 1024, fun _ => 0⟩ 0).head?) = (.ok (some 0), some 1) :=
    Run.exec_map (f := fun s : Store (Fin 1) (Fin 1) => (((s.fill 0 fun _ => 0).pkt_aggregate ⟨.i386, 1024, fun _ => 0⟩ 0).map
        fun r => (r.2.bytesAt 0 r.1 ((s.fill 0 fun _ => 0).pkt 0).hdr.p_tlen).head?,
      ((s.fill 0 fun _ => 0).data ⟨.i386, 1024, fun _ => 0⟩ 0).head?)) (by decide +kernel)
  obtain ⟨s, hs, hf⟩ := hrun
  obtain ⟨hbytes, hdata⟩ := Prod.mk.inj hf
  refine ⟨s, hs, fun hr => ?_⟩
  obtain ⟨ptr, s', hagg, heq⟩ := hr.aggregate fun _ => 0
  rw [hagg] at hbytes
  have hhead : (s'.bytesAt 0 ptr ((s.fill 0 fun _ => 0).pkt 0).hdr.p_tlen).head? = some 0 :=
    Except.ok.inj hbytes
  rw [heq, hdata] at hhead
  exact absurd hhead (by decide)

/-- A header of two bytes that stays in the pbuf, in front of shared data. -/
theorem run_readsBack_iff_headed :
    ∃ s, Run.exec (Store.call ⟨.i386, 1024, fun _ => 0⟩)
        ((Store.empty (fun _ : Fin 1 => ⟨Pbuf.new ⟨.i386, 1024, fun _ => 0⟩, false, none⟩)
          (fun _ : Fin 1 => ⟨0, 0, 0, fun _ => 0⟩)).new ⟨.i386, 1024, fun _ => 0⟩ 0)
        [.pkt_sattach 0 10 0, .pkt_sprepend 0 (.cluster 0 94) 10, .pkt_prepend 0 [1, 2, 3],
          .pkt_seek 0 1] = .ok s ∧
      (ReadsBack ⟨.i386, 1024, fun _ => 0⟩ s 0 ↔ InOnePlace s (s.pkt 0)) := by
  have hrun : ∃ s, Run.exec (Store.call ⟨.i386, 1024, fun _ => 0⟩)
      ((Store.empty (fun _ : Fin 1 => ⟨Pbuf.new ⟨.i386, 1024, fun _ => 0⟩, false, none⟩)
        (fun _ : Fin 1 => ⟨0, 0, 0, fun _ => 0⟩)).new ⟨.i386, 1024, fun _ => 0⟩ 0)
      [.pkt_sattach 0 10 0, .pkt_sprepend 0 (.cluster 0 94) 10, .pkt_prepend 0 [1, 2, 3],
        .pkt_seek 0 1] = .ok s ∧ (s.pkt 0).hdr.p_len = 2 :=
    Run.exec_map (f := fun s : Store (Fin 1) (Fin 1) => (s.pkt 0).hdr.p_len) (by decide +kernel)
  obtain ⟨s, hs, -⟩ := hrun
  exact ⟨s, hs, run_readsBack_iff ⟨.i386, 1024, fun _ => 0⟩ (by decide) _ _ 0 _ (by decide)
    (by decide +kernel) (by decide +kernel) (by decide +kernel) hs⟩

end Packet
