import Nctuns.Lib.Outcome
import Nctuns.Packet.Proofs.PbufProofs
import Nctuns.Packet.Store

/-!
# Accounting of the shared pbufs

Every call changes one packet and at most one shared pbuf. The packets that use a shared pbuf are found
by `Pkt.shares`, so `put` adds the packet to the sharers of one pbuf and takes it from all others.
-/

set_option linter.unusedSectionVars false

namespace Packet

open Memory

variable {π σ : Type*} {e : Env} {t u : Pkt σ} {a b : σ}

/-! ## Arithmetic modulo `2 ^ 32` -/

/-- A sum in 32 bits, whether or not its terms are reduced. -/
theorem u32_add (x y : Int) : u32 (u32 x + y) = u32 (x + y) := by
  simp only [u32]
  omega

/-- Two numbers agree in 32 bits where their difference is divisible. -/
theorem u32_eq_iff (x y : Int) : u32 x = u32 y ↔ (x - y) % 2 ^ 32 = 0 := by
  simp only [u32]
  omega

theorem u32_of_lt {n : Nat} (h : n < 2 ^ 32) : u32 n = n := by
  simp only [u32]
  omega

/-- A copied header lies in its buffer too. -/
theorem Pbuf.Fits.copied {s : Pbuf} (h : s.Fits e) :
    (s.copied e).Fits e ∧ (s.copied e).p_len = s.p_len ∧ (s.copied e).p_tlen = s.p_tlen := by
  have hpad := e.abi.padding
  have hstart := h.start
  have hends := h.ends
  cases hs : s.extend with
  | true =>
    simp only [bufEnd, hs, if_true] at hends
    simp only [Pbuf.copied, hs, if_true]
    refine ⟨⟨h.nonneg, ?_, ?_, by simp⟩, trivial, trivial⟩
    · simp only
      omega
    · simp only [bufEnd, if_true]
      omega
  | false =>
    have hinline := h.inline hs
    simp only [Pbuf.copied, hs, Bool.false_eq_true, if_false]
    refine ⟨⟨h.nonneg, ?_, ?_, fun _ => hinline⟩, trivial, trivial⟩
    · simp only
      omega
    · simp only [bufEnd, Bool.false_eq_true, if_false]
      omega

/-! ## Packets and pbufs -/

/-- A packet shares the buffer that it points to, if it has one. -/
theorem Pkt.shares_eq_some : t.shares = some a ↔ t.withShared = true ∧ t.p_sptr = some a := by
  unfold shares
  split <;> simp_all

variable [DecidableEq π] [DecidableEq σ]

namespace Store

variable {s s' : Store π σ} {p q : π} {c : SharedBuf}

@[simp] theorem live_put : (s.put p t).live = insert p s.live := rfl
@[simp] theorem alloc_put : (s.put p t).alloc = s.alloc := rfl
@[simp] theorem sbuf_put : (s.put p t).sbuf = s.sbuf := rfl
@[simp] theorem live_setShared : (s.setShared a c).live = s.live := rfl
@[simp] theorem pkt_setShared : (s.setShared a c).pkt = s.pkt := rfl
@[simp] theorem alloc_setShared : (s.setShared a c).alloc = insert a s.alloc := rfl
@[simp] theorem live_free : (s.free a).live = s.live := rfl
@[simp] theorem pkt_free : (s.free a).pkt = s.pkt := rfl
@[simp] theorem alloc_free : (s.free a).alloc = s.alloc.erase a := rfl
@[simp] theorem sbuf_free : (s.free a).sbuf = s.sbuf := rfl

@[simp] theorem pkt_put_self : (s.put p t).pkt p = t := Function.update_self ..

theorem pkt_put_of_ne (h : q ≠ p) : (s.put p t).pkt q = s.pkt q := Function.update_of_ne h ..

@[simp] theorem sbuf_setShared_self : (s.setShared a c).sbuf a = c := Function.update_self ..

theorem sbuf_setShared_of_ne (h : b ≠ a) : (s.setShared a c).sbuf b = s.sbuf b :=
  Function.update_of_ne h ..

theorem mem_sharers : p ∈ s.sharers a ↔ p ∈ s.live ∧ (s.pkt p).shares = some a := by
  simp [sharers]

@[simp] theorem sharers_setShared : (s.setShared a c).sharers b = s.sharers b := rfl

@[simp] theorem sharers_free : (s.free a).sharers b = s.sharers b := rfl

/-- A packet that is written shares the buffer of its new contents. -/
theorem sharers_put :
    (s.put p t).sharers a =
      if t.shares = some a then insert p (s.sharers a) else (s.sharers a).erase p := by
  ext q
  by_cases hq : q = p
  · subst hq
    split_ifs <;> simp_all [mem_sharers]
  · rw [mem_sharers, pkt_put_of_ne hq]
    split_ifs <;> simp [mem_sharers, hq]

/-- A packet that keeps its shared pbuf stays among the sharers. -/
theorem sharers_put_same (hp : p ∈ s.live) (ht : t.shares = (s.pkt p).shares) :
    (s.put p t).sharers a = s.sharers a := by
  rw [sharers_put, ht]
  split_ifs with h
  · exact Finset.insert_eq_of_mem (mem_sharers.2 ⟨hp, h⟩)
  · exact Finset.erase_eq_of_notMem fun hmem => h (mem_sharers.1 hmem).2

/-- A new packet. -/
theorem sharers_put_new (hp : p ∉ s.live) :
    (s.put p t).sharers a = if t.shares = some a then insert p (s.sharers a) else s.sharers a := by
  rw [sharers_put, Finset.erase_eq_of_notMem fun hmem => hp (mem_sharers.1 hmem).1]

/-- A packet that is freed shares nothing. -/
theorem sharers_delete :
    ({ s with live := s.live.erase p } : Store π σ).sharers a = (s.sharers a).erase p := by
  ext q
  simp [mem_sharers, and_assoc]

theorem deref_of_mem (h : a ∈ s.alloc) : s.deref (some a) = .ok (a, s.sbuf a) := by
  simp [deref, h]

@[simp] theorem sharedLen_put : (s.put p t).sharedLen u = s.sharedLen u := rfl

/-- A buffer that keeps its length. -/
theorem sharedLen_setShared (h : u.shares = some a → c.p_len = (s.sbuf a).p_len) :
    (s.setShared a c).sharedLen u = s.sharedLen u := by
  unfold sharedLen
  cases hu : u.shares with
  | none => rfl
  | some b =>
    by_cases hb : b = a
    · subst hb
      simp [h hu]
    · simp [sbuf_setShared_of_ne hb]

theorem sharedLen_of_shares (h : t.shares = some a) : s.sharedLen t = (s.sbuf a).p_len := by
  simp [sharedLen, h]

theorem sharedLen_of_none (h : t.shares = none) : s.sharedLen t = 0 := by
  simp [sharedLen, h]

/-! ## The invariant -/

/-- The header of `t` lies in its buffer, `p_sptr` is set where the flag says so, and `p_tlen` is the
    length of header and shared data. -/
structure PktSound (e : Env) (s : Store π σ) (t : Pkt σ) : Prop where
  fits : t.hdr.Fits e
  ptr : t.withShared = true ↔ t.p_sptr ≠ none
  tlen : t.hdr.p_tlen = u32 (t.hdr.p_len + s.sharedLen t)

/-- The counts of the shared pbufs are right. -/
structure Counts (s : Store π σ) : Prop where
  refcnt : ∀ a ∈ s.alloc, (s.sbuf a).p_refcnt = (s.sharers a).card
  bound : ∀ a ∈ s.alloc, (s.sbuf a).p_refcnt < 2 ^ 32
  freed : ∀ a, a ∈ s.alloc ↔ (s.sharers a).card ≠ 0

/-- What holds between the calls of careful callers. -/
structure Sound (e : Env) (s : Store π σ) : Prop where
  counts : Counts s
  pkts : ∀ p ∈ s.live, PktSound e s (s.pkt p)

/-- The invariant gives the accounts. -/
theorem Sound.accounts (h : Sound e s) : Accounts s where
  refcnt := h.counts.refcnt
  freed := h.counts.freed
  sptr p hp := (h.pkts p hp).ptr.2
  tlen p hp := (h.pkts p hp).tlen

/-- A packet with `PF_WITHSHARED` uses a pbuf that is allocated. -/
theorem Sound.using (h : Sound e s) (hp : p ∈ s.live) (ht : (s.pkt p).withShared = true) :
    ∃ a, (s.pkt p).shares = some a ∧ (s.pkt p).p_sptr = some a ∧ a ∈ s.alloc ∧ p ∈ s.sharers a ∧
      s.deref (s.pkt p).p_sptr = .ok (a, s.sbuf a) := by
  obtain ⟨a, ha⟩ := Option.ne_none_iff_exists'.1 ((h.pkts p hp).ptr.1 ht)
  have hs : (s.pkt p).shares = some a := Pkt.shares_eq_some.2 ⟨ht, ha⟩
  have hmem : p ∈ s.sharers a := mem_sharers.2 ⟨hp, hs⟩
  have halloc : a ∈ s.alloc := (h.counts.freed a).2 (Finset.card_ne_zero_of_mem hmem)
  exact ⟨a, hs, ha, halloc, hmem, by rw [ha, deref_of_mem halloc]⟩

/-- The store is empty. -/
theorem sound_empty (pkt : π → Pkt σ) (sbuf : σ → SharedBuf) : Sound e (Store.empty pkt sbuf) where
  counts := by
    have hnone : ∀ a, (Store.empty pkt sbuf : Store π σ).sharers a = ∅ := fun _ => Finset.filter_empty _
    exact ⟨by simp [empty], by simp [empty], fun a => by rw [hnone a]; simp [empty]⟩
  pkts := by simp [empty]

theorem PktSound.put (h : PktSound e s u) : PktSound e (s.put p t) u := ⟨h.fits, h.ptr, h.tlen⟩

/-- A buffer that keeps its length is written. -/
theorem PktSound.setShared (h : PktSound e s u)
    (hc : u.shares = some a → c.p_len = (s.sbuf a).p_len) : PktSound e (s.setShared a c) u :=
  ⟨h.fits, h.ptr, by rw [h.tlen, sharedLen_setShared hc]⟩

/-- A sound packet is written. -/
theorem pktSound_put (h : ∀ q ∈ s.live, q ≠ p → PktSound e s (s.pkt q)) (ht : PktSound e s t) :
    ∀ q ∈ (s.put p t).live, PktSound e (s.put p t) ((s.put p t).pkt q) := by
  intro q hq
  by_cases hqp : q = p
  · subst hqp
    rw [pkt_put_self]
    exact ht.put
  · rw [pkt_put_of_ne hqp]
    exact (h q ((Finset.mem_insert.1 hq).resolve_left hqp) hqp).put

/-- Counts that agree, and the same sharers. -/
theorem Counts.congr (h : Counts s) (halloc : s'.alloc = s.alloc)
    (hsbuf : ∀ a ∈ s.alloc, (s'.sbuf a).p_refcnt = (s.sbuf a).p_refcnt)
    (hsharers : ∀ a, s'.sharers a = s.sharers a) : Counts s' where
  refcnt a ha := by
    rw [halloc] at ha
    rw [hsbuf a ha, hsharers, h.refcnt a ha]
  bound a ha := by
    rw [halloc] at ha
    rw [hsbuf a ha]
    exact h.bound a ha
  freed a := by rw [halloc, hsharers, h.freed]

/-- The pbuf at `a` is in use with a new count. -/
theorem Counts.of_used (h : Counts s) (halloc : s'.alloc = insert a s.alloc)
    (hcount : (s'.sbuf a).p_refcnt = (s'.sharers a).card) (hbound : (s'.sbuf a).p_refcnt < 2 ^ 32)
    (hused : (s'.sharers a).card ≠ 0) (hsbuf : ∀ b, b ≠ a → s'.sbuf b = s.sbuf b)
    (hsharers : ∀ b, b ≠ a → s'.sharers b = s.sharers b) : Counts s' where
  refcnt b hb := by
    by_cases hba : b = a
    · rw [hba, hcount]
    · rw [halloc] at hb
      rw [hsbuf b hba, hsharers b hba, h.refcnt b ((Finset.mem_insert.1 hb).resolve_left hba)]
  bound b hb := by
    by_cases hba : b = a
    · rwa [hba]
    · rw [halloc] at hb
      rw [hsbuf b hba]
      exact h.bound b ((Finset.mem_insert.1 hb).resolve_left hba)
  freed b := by
    by_cases hba : b = a
    · subst hba
      exact iff_of_true (halloc ▸ Finset.mem_insert_self b s.alloc) hused
    · rw [halloc, Finset.mem_insert, hsharers b hba, ← h.freed]
      exact or_iff_right hba

/-- The pbuf at `a` is freed. -/
theorem Counts.of_free (h : Counts s) (halloc : s'.alloc = s.alloc.erase a)
    (hunused : (s'.sharers a).card = 0) (hsbuf : ∀ b, b ≠ a → s'.sbuf b = s.sbuf b)
    (hsharers : ∀ b, b ≠ a → s'.sharers b = s.sharers b) : Counts s' where
  refcnt b hb := by
    rw [halloc] at hb
    obtain ⟨hba, hb⟩ := Finset.mem_erase.1 hb
    rw [hsbuf b hba, hsharers b hba, h.refcnt b hb]
  bound b hb := by
    rw [halloc] at hb
    obtain ⟨hba, hb⟩ := Finset.mem_erase.1 hb
    rw [hsbuf b hba]
    exact h.bound b hb
  freed b := by
    by_cases hba : b = a
    · subst hba
      exact iff_of_false (halloc ▸ Finset.notMem_erase b s.alloc) (not_not.2 hunused)
    · rw [halloc, Finset.mem_erase, hsharers b hba, ← h.freed]
      exact and_iff_right hba

/-! ## The calls -/

/-- A header that changes and keeps `p_tlen` right. -/
theorem Sound.put_hdr (h : Sound e s) (hp : p ∈ s.live) {hdr : Pbuf} (hfits : hdr.Fits e)
    (htlen : hdr.p_tlen = u32 (hdr.p_len + s.sharedLen (s.pkt p))) :
    Sound e (s.put p { s.pkt p with hdr }) where
  counts := h.counts.congr rfl (fun _ _ => rfl) fun _ => sharers_put_same hp rfl
  pkts := pktSound_put (fun q hq _ => h.pkts q hq) ⟨hfits, (h.pkts p hp).ptr, htlen⟩

/-- **New packet.**. -/
theorem Sound.new (h : Sound e s) (hp : p ∉ s.live) : Sound e (s.new e p) where
  counts := h.counts.congr rfl (fun _ _ => rfl) fun _ => by
    rw [Store.new, sharers_put_new hp, if_neg (by simp [Pkt.shares])]
  pkts := pktSound_put (fun q hq _ => h.pkts q hq) ⟨.new, by simp, rfl⟩

/-- `pkt_prepend` writes the header part of the packet. -/
theorem pkt_prepend_eq_ok {data : List Byte} (hs' : s.pkt_prepend e p data = .ok s') :
    ∃ hdr, (s.pkt p).hdr.pkt_prepend e data = .ok hdr ∧ s' = s.put p { s.pkt p with hdr } := by
  unfold Store.pkt_prepend at hs'
  cases hdr : (s.pkt p).hdr.pkt_prepend e data with
  | error x =>
    rw [hdr] at hs'
    cases hs'
  | ok t =>
    rw [hdr] at hs'
    exact ⟨t, rfl, (Except.ok.inj hs').symm⟩

/-- **Prepend.**. -/
theorem Sound.pkt_prepend (h : Sound e s) (hp : p ∈ s.live) {data : List Byte}
    (hs' : s.pkt_prepend e p data = .ok s') : Sound e s' := by
  obtain ⟨hdr, hprepend, rfl⟩ := pkt_prepend_eq_ok hs'
  obtain ⟨hfits, hlen, htlen⟩ := (h.pkts p hp).fits.pkt_prepend hprepend
  refine h.put_hdr hp hfits ?_
  rw [htlen, hlen, (h.pkts p hp).tlen, u32_add]
  exact congrArg u32 (by omega)

/-- **Seek.** The data must stay behind the start of the buffer. -/
theorem Sound.pkt_seek (h : Sound e s) (hp : p ∈ s.live) {offset : Int}
    (hd : (s.pkt p).hdr.extend = false → e.abi.p_dbuf ≤ (s.pkt p).hdr.p_dat + offset) :
    Sound e (s.pkt_seek e p offset) := by
  refine h.put_hdr hp ((h.pkts p hp).fits.pkt_seek hd) ?_
  obtain ⟨o, heq, -⟩ := (h.pkts p hp).fits.pkt_seek_eq hd
  rw [heq]
  simp only
  rw [(h.pkts p hp).tlen, Int.sub_eq_add_neg, u32_add]
  exact congrArg u32 (by omega)

theorem shares_of_not (ht : (s.pkt p).withShared = false) : (s.pkt p).shares = none := by
  simp [Pkt.shares, ht]

@[simp] theorem shares_copied : (t.copied e).shares = t.shares := rfl

/-- The copy of a packet is as sound as the packet. -/
theorem PktSound.copied (h : PktSound e s t) : PktSound e s (t.copied e) := by
  obtain ⟨hfits, hlen, htlen⟩ := h.fits.copied
  have hcopied : (t.copied e).hdr = t.hdr.copied e := rfl
  exact ⟨hfits, h.ptr, by rw [hcopied, hlen, htlen, h.tlen]; rfl⟩

/-- **Copy.** The count must not wrap. -/
theorem Sound.copy (h : Sound e s) (hp : p ∈ s.live) (hq : q ∉ s.live)
    (hc : ∀ a ∈ (s.pkt p).shares, (s.sbuf a).p_refcnt + 1 < 2 ^ 32) (hs' : s.copy e p q = .ok s') :
    Sound e s' := by
  have hput := pktSound_put (p := q) (fun r hr _ => h.pkts r hr) (h.pkts p hp).copied
  have hnew : ∀ a, (s.put q ((s.pkt p).copied e)).sharers a =
      if (s.pkt p).shares = some a then insert q (s.sharers a) else s.sharers a :=
    fun a => sharers_put_new hq
  unfold Store.copy at hs'
  cases ht : (s.pkt p).withShared with
  | false =>
    rw [if_neg (by simp [ht])] at hs'
    obtain rfl := Except.ok.inj hs'
    refine ⟨h.counts.congr rfl (fun _ _ => rfl) fun a => ?_, hput⟩
    rw [hnew, shares_of_not ht, if_neg (by simp)]
  | true =>
    obtain ⟨a, hsh, -, halloc, hmem, hderef⟩ := h.using hp ht
    have hderef' : (s.put q ((s.pkt p).copied e)).deref (s.pkt p).p_sptr = .ok (a, s.sbuf a) := hderef
    rw [if_pos ht, hderef'] at hs'
    obtain rfl := Except.ok.inj hs'
    have hq' : q ∉ s.sharers a := fun hmem => hq (mem_sharers.1 hmem).1
    have hcard : ((s.put q ((s.pkt p).copied e)).sharers a).card = (s.sharers a).card + 1 := by
      rw [hnew, if_pos hsh, Finset.card_insert_of_notMem hq']
    have hlt := hc a hsh
    have hcount : u32 ((s.sbuf a).p_refcnt + 1) = (s.sbuf a).p_refcnt + 1 :=
      u32_of_lt (n := (s.sbuf a).p_refcnt + 1) hlt
    refine ⟨h.counts.of_used (a := a) rfl ?_ ?_ ?_ (fun b hba => sbuf_setShared_of_ne hba)
      fun b hba => ?_, fun r hr => (hput r hr).setShared fun _ => rfl⟩
    · rw [sbuf_setShared_self, sharers_setShared, hcard, hcount, h.counts.refcnt a halloc]
    · rw [sbuf_setShared_self, hcount]
      exact hlt
    · rw [sharers_setShared, hcard]
      exact Nat.succ_ne_zero _
    · rw [sharers_setShared, hnew, hsh, if_neg fun hab => hba (Option.some.inj hab).symm]

/-- The count of a pbuf that loses one of its sharers. -/
theorem Counts.sub_one (h : Counts s) (ha : a ∈ s.alloc) (hp : p ∈ s.sharers a) :
    u32 ((s.sbuf a).p_refcnt - 1) = ((s.sharers a).erase p).card := by
  have hcard := h.refcnt a ha
  have hbound := h.bound a ha
  have hpos : 0 < (s.sharers a).card := Finset.card_pos.2 ⟨p, hp⟩
  have hsub : ((s.sbuf a).p_refcnt : Int) - 1 = ((s.sharers a).card - 1 : Nat) := by omega
  rw [hsub, u32_of_lt (by omega), Finset.card_erase_of_mem hp]

/-- **Release.** The buffer is freed with its last packet. -/
theorem Sound.release (h : Sound e s) (hp : p ∈ s.live) (hs' : s.release p = .ok s') :
    Sound e s' := by
  have hpkts : ∀ q ∈ s.live.erase p, PktSound e s (s.pkt q) :=
    fun q hq => h.pkts q (Finset.mem_of_mem_erase hq)
  have herase : ∀ b, ({ s with live := s.live.erase p } : Store π σ).sharers b = (s.sharers b).erase p :=
    fun b => sharers_delete
  have hkeep : ∀ b, (s.pkt p).shares ≠ some b → (s.sharers b).erase p = s.sharers b :=
    fun b hb => Finset.erase_eq_of_notMem fun hmem => hb (mem_sharers.1 hmem).2
  unfold Store.release at hs'
  cases ht : (s.pkt p).withShared with
  | false =>
    rw [if_neg (by simp [ht])] at hs'
    obtain rfl := Except.ok.inj hs'
    have hnone := shares_of_not ht
    refine ⟨h.counts.congr rfl (fun _ _ => rfl) fun b => ?_, fun q hq => ?_⟩
    · rw [herase, hkeep b (by simp [hnone])]
    · exact ⟨(hpkts q hq).fits, (hpkts q hq).ptr, (hpkts q hq).tlen⟩
  | true =>
    obtain ⟨a, hsh, -, halloc, hmem, hderef⟩ := h.using hp ht
    rw [if_pos ht, hderef] at hs'
    obtain rfl := Except.ok.inj hs'
    have hcount := h.counts.sub_one halloc hmem
    have hother : ∀ b, b ≠ a → (s.sharers b).erase p = s.sharers b :=
      fun b hba => hkeep b fun hb => hba (Option.some.inj (hb.symm.trans hsh))
    by_cases hzero : u32 ((s.sbuf a).p_refcnt - 1) = 0
    · rw [if_pos hzero]
      refine ⟨h.counts.of_free (a := a) rfl ?_ (fun _ _ => rfl) fun b hba => ?_, fun q hq => ?_⟩
      · rw [sharers_free, herase, ← hcount, hzero]
      · rw [sharers_free, herase, hother b hba]
      · exact ⟨(hpkts q hq).fits, (hpkts q hq).ptr, (hpkts q hq).tlen⟩
    · rw [if_neg hzero]
      refine ⟨h.counts.of_used (a := a) rfl ?_ ?_ ?_ (fun b hba => sbuf_setShared_of_ne hba)
        fun b hba => ?_, fun q hq => ?_⟩
      · rw [sbuf_setShared_self, sharers_setShared, herase, hcount]
      · rw [sbuf_setShared_self]
        simp only [u32]
        omega
      · rw [sharers_setShared, herase, ← hcount]
        exact hzero
      · rw [sharers_setShared, herase, hother b hba]
      · have hq' : PktSound e ({ s with live := s.live.erase p } : Store π σ) (s.pkt q) :=
          ⟨(hpkts q hq).fits, (hpkts q hq).ptr, (hpkts q hq).tlen⟩
        exact hq'.setShared fun _ => rfl

/-- No packet shares a buffer that is not allocated. -/
theorem not_shares_of_notMem (h : Counts s) (hp : p ∈ s.live) (ha : a ∉ s.alloc) :
    (s.pkt p).shares ≠ some a := fun hs =>
  ha ((h.freed a).2 (Finset.card_ne_zero_of_mem (mem_sharers.2 ⟨hp, hs⟩)))

/-- **Attach.** A new buffer with one packet. -/
theorem Sound.pkt_sattach (h : Sound e s) (hp : p ∈ s.live) (ha : a ∉ s.alloc) {len : Int} :
    Sound e (s.pkt_sattach e p len a).2 := by
  unfold Store.pkt_sattach
  cases ht : (s.pkt p).withShared with
  | true =>
    rw [if_pos rfl]
    exact h
  | false =>
    rw [if_neg (by simp)]
    have hnone := shares_of_not ht
    have hcard : (s.sharers a).card = 0 := by
      by_contra hne
      exact ha ((h.counts.freed a).2 hne)
    have hsh : ({ s.pkt p with withShared := true, p_sptr := some a } : Pkt σ).shares = some a := rfl
    refine ⟨h.counts.of_used (a := a) rfl ?_ ?_ ?_ (fun b hba => sbuf_setShared_of_ne hba)
      fun b hba => ?_, pktSound_put (fun q hq _ => (h.pkts q hq).setShared fun hqa => ?_) ?_⟩
    · rw [sharers_put, if_pos hsh, sharers_setShared, Finset.card_eq_zero.1 hcard, sbuf_put,
        sbuf_setShared_self]
      rfl
    · rw [sbuf_put, sbuf_setShared_self]
      simp [sget]
    · rw [sharers_put, if_pos hsh]
      exact Finset.card_ne_zero_of_mem (Finset.mem_insert_self ..)
    · rw [sharers_put, hsh, if_neg fun hab => hba (Option.some.inj hab).symm, sharers_setShared]
      exact Finset.erase_eq_of_notMem fun hmem => by simpa [hnone] using (mem_sharers.1 hmem).2
    · exact absurd hqa (not_shares_of_notMem h.counts hq ha)
    · refine ⟨(h.pkts p hp).fits, by simp, ?_⟩
      rw [sharedLen_of_shares hsh, sbuf_setShared_self]
      have htlen := (h.pkts p hp).tlen
      rwa [sharedLen_of_none hnone] at htlen

/-- `pkt_sdeattach` by a packet that is not the last sharer. -/
theorem Sound.pkt_sdeattach (h : Sound e s) (hp : p ∈ s.live)
    (hc : ∀ a ∈ (s.pkt p).shares, (s.sbuf a).p_refcnt ≠ 1) {r : Int}
    (hs' : s.pkt_sdeattach p = .ok (r, s')) : Sound e s' := by
  unfold Store.pkt_sdeattach at hs'
  cases ht : (s.pkt p).withShared with
  | false =>
    rw [if_neg (by simp [ht])] at hs'
    obtain ⟨-, rfl⟩ := Prod.mk.inj (Except.ok.inj hs')
    exact h
  | true =>
    obtain ⟨a, hsh, -, halloc, hmem, hderef⟩ := h.using hp ht
    rw [if_pos ht, hderef] at hs'
    simp only [if_neg (hc a hsh)] at hs'
    obtain ⟨-, rfl⟩ := Prod.mk.inj (Except.ok.inj hs')
    have hcount := h.counts.sub_one halloc hmem
    have hcard := h.counts.refcnt a halloc
    have hne := hc a hsh
    have hpos : 0 < (s.sharers a).card := Finset.card_pos.2 ⟨p, hmem⟩
    refine ⟨h.counts.of_used (a := a) rfl ?_ ?_ ?_
      (fun b hba => sbuf_setShared_of_ne hba) fun b hba => ?_,
      pktSound_put (fun q hq _ => (h.pkts q hq).setShared fun _ => rfl) ?_⟩
    · rw [sharers_put, if_neg (by simp [Pkt.shares]), sharers_setShared, sbuf_put, sbuf_setShared_self,
        hcount]
    · rw [sbuf_put, sbuf_setShared_self]
      simp only [u32]
      omega
    · rw [sharers_put, if_neg (by simp [Pkt.shares]), sharers_setShared, Finset.card_erase_of_mem hmem]
      omega
    · rw [sharers_put, if_neg (by simp [Pkt.shares]), sharers_setShared]
      refine Finset.erase_eq_of_notMem fun hb => hba ?_
      exact Option.some.inj ((mem_sharers.1 hb).2.symm.trans hsh)
    · refine ⟨?_, by simp, ?_⟩
      · have hfits := (h.pkts p hp).fits
        exact ⟨hfits.nonneg, hfits.start, hfits.ends, hfits.inline⟩
      · rw [sharedLen_of_none rfl]
        simp only
        rw [(h.pkts p hp).tlen, sharedLen_of_shares hsh, Int.sub_eq_add_neg, u32_add]
        exact congrArg u32 (by omega)

/-- `pkt_sprepend` by the only sharer, or of no bytes. -/
theorem Sound.pkt_sprepend (h : Sound e s) (hp : p ∈ s.live) {data : Ptr σ} {len r : Int}
    (hc : ∀ a ∈ (s.pkt p).shares, data = .cluster a e.abi.P_DATLEN →
      (s.sbuf a).p_refcnt = 1 ∨ len % 2 ^ 32 = 0)
    (hs' : s.pkt_sprepend e p data len = .ok (r, s')) : Sound e s' := by
  unfold Store.pkt_sprepend at hs'
  cases ht : (s.pkt p).withShared with
  | false =>
    rw [if_neg (by simp [ht])] at hs'
    obtain ⟨-, rfl⟩ := Prod.mk.inj (Except.ok.inj hs')
    exact h
  | true =>
    obtain ⟨a, hsh, -, halloc, hmem, hderef⟩ := h.using hp ht
    rw [if_pos ht, hderef] at hs'
    simp only at hs'
    split at hs'
    · rename_i hdata
      obtain ⟨-, rfl⟩ := Prod.mk.inj (Except.ok.inj hs')
      refine ⟨h.counts.congr (Finset.insert_eq_of_mem halloc) (fun b hb => ?_) fun b => ?_,
        pktSound_put (fun q hq hqp => ?_) ?_⟩
      · by_cases hba : b = a
        · rw [hba, sbuf_put, sbuf_setShared_self]
        · rw [sbuf_put, sbuf_setShared_of_ne hba]
      · rw [sharers_put_same (by exact hp) (by rfl), sharers_setShared]
      · by_cases hqa : (s.pkt q).shares = some a
        · have hzero : len % 2 ^ 32 = 0 := by
            refine (hc a hsh hdata.symm).resolve_left fun hone => hqp ?_
            rw [h.counts.refcnt a halloc] at hone
            exact Finset.card_le_one.1 hone.le q (mem_sharers.2 ⟨hq, hqa⟩) p hmem
          have htlen := (h.pkts q hq).tlen
          rw [sharedLen_of_shares hqa] at htlen
          refine ⟨(h.pkts q hq).fits, (h.pkts q hq).ptr, ?_⟩
          rw [pkt_setShared, sharedLen_of_shares hqa, sbuf_setShared_self, htlen, u32_eq_iff]
          simp only
          omega
        · exact (h.pkts q hq).setShared fun hqa' => absurd hqa' hqa
      · have hfits := (h.pkts p hp).fits
        have htlen := (h.pkts p hp).tlen
        rw [sharedLen_of_shares hsh] at htlen
        refine ⟨⟨hfits.nonneg, hfits.start, hfits.ends, hfits.inline⟩, (h.pkts p hp).ptr, ?_⟩
        rw [sharedLen_of_shares (by exact hsh), sbuf_setShared_self]
        simp only
        rw [htlen, u32_add]
        exact congrArg u32 (by omega)
    · obtain ⟨-, rfl⟩ := Prod.mk.inj (Except.ok.inj hs')
      exact h

/-- **One call.** A careful caller's call keeps the accounts right. -/
theorem Sound.call (h : Sound e s) {c : Call π σ} (hallowed : Allowed s c) (hc : Careful e s c)
    (hs' : s.call e c = .ok s') : Sound e s' := by
  cases c with
  | new p =>
    obtain rfl := Except.ok.inj hs'
    exact h.new hallowed
  | copy p q => exact h.copy hallowed.1 hallowed.2 hc hs'
  | delete p => exact h.release hallowed hs'
  | pkt_prepend p data => exact h.pkt_prepend hallowed hs'
  | pkt_seek p offset =>
    obtain rfl := Except.ok.inj hs'
    exact h.pkt_seek hallowed hc
  | pkt_sattach p len a =>
    obtain rfl := Except.ok.inj hs'
    exact h.pkt_sattach hallowed.1 hallowed.2
  | pkt_sdeattach p =>
    obtain ⟨⟨r, t⟩, ht, rfl⟩ := Outcome.of_map_eq_ok hs'
    exact h.pkt_sdeattach hallowed hc ht
  | pkt_sprepend p data len =>
    obtain ⟨⟨r, t⟩, ht, rfl⟩ := Outcome.of_map_eq_ok hs'
    exact h.pkt_sprepend hallowed hc ht

/-! ## The other direction -/

/-- A copy that keeps the accounts did not wrap the count. -/
theorem Sound.careful_of_copy (h : Sound e s) (hp : p ∈ s.live) (hq : q ∉ s.live)
    (hs' : s.copy e p q = .ok s') (hacc : Accounts s') :
    ∀ a ∈ (s.pkt p).shares, (s.sbuf a).p_refcnt + 1 < 2 ^ 32 := by
  intro a hsh
  have ht : (s.pkt p).withShared = true := (Pkt.shares_eq_some.1 hsh).1
  obtain ⟨a', hsh', -, halloc, hmem, hderef⟩ := h.using hp ht
  obtain rfl : a = a' := Option.some.inj (hsh.symm.trans hsh')
  have hderef' : (s.put q ((s.pkt p).copied e)).deref (s.pkt p).p_sptr = .ok (a, s.sbuf a) := hderef
  unfold Store.copy at hs'
  rw [if_pos ht, hderef'] at hs'
  obtain rfl := Except.ok.inj hs'
  have hcount := hacc.refcnt a (Finset.mem_insert_self ..)
  have hq' : q ∉ s.sharers a := fun hmem => hq (mem_sharers.1 hmem).1
  rw [sbuf_setShared_self, sharers_setShared, sharers_put_new hq, shares_copied, if_pos hsh',
    Finset.card_insert_of_notMem hq', ← h.counts.refcnt a halloc] at hcount
  simp only [u32] at hcount
  omega

/-- A seek that keeps the accounts stays behind the start of the buffer. -/
theorem Sound.careful_of_seek (h : Sound e s) (hp : p ∈ s.live) {offset : Int}
    (hacc : Accounts (s.pkt_seek e p offset)) (hs : (s.pkt p).hdr.extend = false) :
    e.abi.p_dbuf ≤ (s.pkt p).hdr.p_dat + offset := by
  by_contra hlt
  have hpad := e.abi.padding
  have hends := (h.pkts p hp).fits.ends
  have htlen := hacc.tlen p (Finset.mem_insert_self ..)
  rw [Store.pkt_seek, pkt_put_self] at htlen
  have hshared : (s.put p { s.pkt p with hdr := (s.pkt p).hdr.pkt_seek e offset }).sharedLen
      { s.pkt p with hdr := (s.pkt p).hdr.pkt_seek e offset } = s.sharedLen (s.pkt p) := rfl
  rw [hshared] at htlen
  simp only [Pbuf.bufEnd, hs, Bool.false_eq_true, if_false] at hends
  have hseek : (s.pkt p).hdr.pkt_seek e offset = { (s.pkt p).hdr with
      p_len := e.abi.P_DATLEN
      p_tlen := u32 ((s.pkt p).hdr.p_tlen + ((s.pkt p).hdr.p_dat - e.abi.p_dbuf))
      p_dat := e.abi.p_dbuf } := by
    rw [Pbuf.pkt_seek, if_neg (by simp [hs]), if_neg (by omega), if_pos (by omega)]
  rw [hseek] at htlen
  simp only at htlen
  rw [(h.pkts p hp).tlen, u32_add, u32_eq_iff] at htlen
  have hplen : PLEN = 128 := rfl
  omega

/-- A detachment that keeps the accounts is not that of the last packet. -/
theorem Sound.careful_of_sdeattach (h : Sound e s) (hp : p ∈ s.live) {r : Int}
    (hs' : s.pkt_sdeattach p = .ok (r, s')) (hacc : Accounts s') :
    ∀ a ∈ (s.pkt p).shares, (s.sbuf a).p_refcnt ≠ 1 := by
  intro a hsh hone
  have ht : (s.pkt p).withShared = true := (Pkt.shares_eq_some.1 hsh).1
  obtain ⟨a', hsh', hptr, -, -, hderef⟩ := h.using hp ht
  obtain rfl : a = a' := Option.some.inj (hsh.symm.trans hsh')
  unfold Store.pkt_sdeattach at hs'
  rw [if_pos ht, hderef] at hs'
  simp only [if_pos hone] at hs'
  obtain ⟨-, rfl⟩ := Prod.mk.inj (Except.ok.inj hs')
  have hflag := hacc.sptr p (Finset.mem_insert_self ..)
  rw [pkt_put_self] at hflag
  simp [hptr] at hflag

/-- A prepending that keeps the accounts takes the buffer of the packet alone, or none. -/
theorem Sound.careful_of_sprepend (h : Sound e s) (hp : p ∈ s.live) {data : Ptr σ} {len r : Int}
    (hs' : s.pkt_sprepend e p data len = .ok (r, s')) (hacc : Accounts s') :
    ∀ a ∈ (s.pkt p).shares, data = .cluster a e.abi.P_DATLEN →
      (s.sbuf a).p_refcnt = 1 ∨ len % 2 ^ 32 = 0 := by
  intro a hsh hdata
  have ht : (s.pkt p).withShared = true := (Pkt.shares_eq_some.1 hsh).1
  obtain ⟨a', hsh', -, halloc, hmem, hderef⟩ := h.using hp ht
  obtain rfl : a = a' := Option.some.inj (hsh.symm.trans hsh')
  unfold Store.pkt_sprepend at hs'
  rw [if_pos ht, hderef] at hs'
  simp only [if_pos hdata.symm] at hs'
  obtain ⟨-, rfl⟩ := Prod.mk.inj (Except.ok.inj hs')
  by_cases hone : (s.sbuf a).p_refcnt = 1
  · exact .inl hone
  -- another sharer still has the old length
  have hpos : 0 < (s.sharers a).card := Finset.card_pos.2 ⟨p, hmem⟩
  rw [h.counts.refcnt a halloc] at hone
  have htwo : 1 < (s.sharers a).card := by omega
  obtain ⟨q, hq, hqp⟩ := Finset.exists_mem_ne htwo p
  obtain ⟨hqlive, hqsh⟩ := mem_sharers.1 hq
  have htlen := hacc.tlen q (Finset.mem_insert_of_mem hqlive)
  rw [pkt_put_of_ne hqp, pkt_setShared, sharedLen_put, sharedLen_of_shares hqsh, sbuf_setShared_self,
    (h.pkts q hqlive).tlen, sharedLen_of_shares hqsh, u32_eq_iff] at htlen
  simp only at htlen
  exact .inr (by omega)

/-- **A call that keeps the accounts is careful.**. -/
theorem Sound.careful_of_accounts (h : Sound e s) {c : Call π σ} (hallowed : Allowed s c)
    (hs' : s.call e c = .ok s') (hacc : Accounts s') : Careful e s c := by
  cases c with
  | new p => trivial
  | copy p q => exact h.careful_of_copy hallowed.1 hallowed.2 hs' hacc
  | delete p => trivial
  | pkt_prepend p data => trivial
  | pkt_seek p offset =>
    obtain rfl := Except.ok.inj hs'
    exact h.careful_of_seek hallowed hacc
  | pkt_sattach p len a => trivial
  | pkt_sdeattach p =>
    obtain ⟨⟨r, t⟩, ht, rfl⟩ := Outcome.of_map_eq_ok hs'
    exact h.careful_of_sdeattach hallowed ht hacc
  | pkt_sprepend p data len =>
    obtain ⟨⟨r, t⟩, ht, rfl⟩ := Outcome.of_map_eq_ok hs'
    exact h.careful_of_sprepend hallowed ht hacc

/-- A call fails only where the cluster of a header is full. -/
theorem Sound.call_error (h : Sound e s) {c : Call π σ} (hallowed : Allowed s c) {x : Halt}
    (hs' : s.call e c = .error x) : ∃ p data, c = .pkt_prepend p data := by
  cases c with
  | new p => cases hs'
  | pkt_seek p offset => cases hs'
  | pkt_sattach p len a => cases hs'
  | pkt_prepend p data => exact ⟨p, data, rfl⟩
  | copy p q =>
    unfold Store.call Store.copy at hs'
    cases ht : (s.pkt p).withShared with
    | false => simp [ht] at hs'
    | true =>
      obtain ⟨a, -, -, -, -, hderef⟩ := h.using hallowed.1 ht
      have hderef' : (s.put q ((s.pkt p).copied e)).deref (s.pkt p).p_sptr = .ok (a, s.sbuf a) := hderef
      simp [ht, hderef'] at hs'
  | delete p =>
    unfold Store.call Store.release at hs'
    cases ht : (s.pkt p).withShared with
    | false => simp [ht] at hs'
    | true =>
      obtain ⟨a, -, -, -, -, hderef⟩ := h.using hallowed ht
      simp [ht, hderef] at hs'
  | pkt_sdeattach p =>
    unfold Store.call Store.pkt_sdeattach at hs'
    cases ht : (s.pkt p).withShared with
    | false => simp [ht] at hs'
    | true =>
      obtain ⟨a, -, -, -, -, hderef⟩ := h.using hallowed ht
      simp only [ht, hderef, if_true] at hs'
      split at hs' <;> cases hs'
  | pkt_sprepend p data len =>
    unfold Store.call Store.pkt_sprepend at hs'
    cases ht : (s.pkt p).withShared with
    | false => simp [ht] at hs'
    | true =>
      obtain ⟨a, -, -, -, -, hderef⟩ := h.using hallowed ht
      simp only [ht, hderef, if_true] at hs'
      split at hs' <;> cases hs'

end Store

open Run Store in
/-- **Accounting.** The accounts are right in every state of a run exactly if every call of it is a
    careful one. -/
theorem run_accounts_iff (e : Env) (pkt : π → Pkt σ) (sbuf : σ → SharedBuf) (calls : List (Call π σ))
    (hallowed : Along (Store.call e) Allowed (Store.empty pkt sbuf) calls) :
    Always (Store.call e) Accounts (Store.empty pkt sbuf) calls ↔
      Along (Store.call e) (Careful e) (Store.empty pkt sbuf) calls := by
  refine always_iff_along (I := Sound e) (D := Allowed) (fun s h => h.accounts)
    (fun s c s' h hal hs' hc => h.call hal hc hs')
    (fun s c s' h hal hs' hacc => h.careful_of_accounts hal hs' hacc)
    (fun s c x h hal hs' => ?_) (sound_empty pkt sbuf) hallowed
  obtain ⟨p, data, rfl⟩ := h.call_error hal hs'
  trivial

/-- A packet attaches shared data and detaches it: the pbuf is freed and `p_sptr` still points to it. -/
theorem sdeattach_keeps_pointer :
    ¬ Run.Always (Store.call ⟨.i386, 1024, fun _ => 0⟩) Accounts
      (Store.empty (fun _ : Fin 1 => ⟨Pbuf.new ⟨.i386, 1024, fun _ => 0⟩, false, none⟩)
        (fun _ : Fin 1 => ⟨0, 0, 0, fun _ => 0⟩))
      [.new 0, .pkt_sattach 0 100 0, .pkt_sdeattach 0] := by
  intro h
  obtain ⟨s, hacc, hs⟩ := h.exec_map
    (f := fun s : Store (Fin 1) (Fin 1) =>
      (decide (0 ∈ s.live), decide (0 ∈ s.alloc), (s.pkt 0).withShared, (s.pkt 0).p_sptr))
    (b := (true, false, false, some 0)) (by decide +kernel)
  simp only [Prod.mk.injEq] at hs
  obtain ⟨hlive, -, hflag, hptr⟩ := hs
  have hset := hacc.sptr 0 (of_decide_eq_true hlive) (by simp [hptr])
  exact absurd hset (by simp [hflag])

/-- A packet with shared data is copied, both change their headers, the copy detaches and goes. -/
theorem run_accounts_iff_copied :
    Run.Always (Store.call ⟨.i386, 1024, fun _ => 0⟩) Accounts
        (Store.empty (fun _ : Fin 2 => ⟨Pbuf.new ⟨.i386, 1024, fun _ => 0⟩, false, none⟩)
          (fun _ : Fin 1 => ⟨0, 0, 0, fun _ => 0⟩))
        [.new 0, .pkt_sattach 0 100 0, .pkt_sprepend 0 (.cluster 0 94) 60, .copy 0 1,
          .pkt_prepend 1 [1, 2], .pkt_seek 1 1, .pkt_sdeattach 1, .delete 1] ↔
      Run.Along (Store.call ⟨.i386, 1024, fun _ => 0⟩) (Careful ⟨.i386, 1024, fun _ => 0⟩)
        (Store.empty (fun _ : Fin 2 => ⟨Pbuf.new ⟨.i386, 1024, fun _ => 0⟩, false, none⟩)
          (fun _ : Fin 1 => ⟨0, 0, 0, fun _ => 0⟩))
        [.new 0, .pkt_sattach 0 100 0, .pkt_sprepend 0 (.cluster 0 94) 60, .copy 0 1,
          .pkt_prepend 1 [1, 2], .pkt_seek 1 1, .pkt_sdeattach 1, .delete 1] :=
  run_accounts_iff _ _ _ _ (by decide +kernel)

end Packet
