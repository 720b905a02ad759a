import Nctuns.Lib.Outcome
import Nctuns.Packet.SharedInfo
import Nctuns.Packet.Proofs.StoreProofs

/-!
# No attribute gets into a shared pbuf

A slot has the size of all that is behind the header of a pbuf, and `p_sbuf` begins later: even the
first slot does not pass the test for room. So no shared pbuf ever becomes one with attributes, and
`pkt_saddinfo` refuses what it is asked to store.
-/

namespace Packet

open Memory

variable {π σ : Type*} [DecidableEq π] [DecidableEq σ] {e : Env} {s s' : Store π σ} {p : π} {a : σ}

/-! ### Where the pointers of packets come from -/

/-- A packet's pointer to shared data is one that a packet had before, or null. -/
def Store.Inherits (s s' : Store π σ) : Prop :=
  ∀ p ∈ s'.live, ∀ a, (s'.pkt p).p_sptr = some a → ∃ q ∈ s.live, (s.pkt q).p_sptr = some a

namespace Store

theorem Inherits.put {t : Pkt σ} (h : s.Inherits s')
    (ht : ∀ a, t.p_sptr = some a → ∃ q ∈ s.live, (s.pkt q).p_sptr = some a) :
    s.Inherits (s'.put p t) := by
  intro q hq b hb
  rcases eq_or_ne q p with rfl | hne
  · rw [pkt_put_self] at hb
    exact ht b hb
  · rw [pkt_put_of_ne hne] at hb
    rw [live_put] at hq
    exact h q ((Finset.mem_insert.1 hq).resolve_left hne) b hb

omit [DecidableEq π] [DecidableEq σ] in
theorem Inherits.congr {s'' : Store π σ} (h : s.Inherits s') (hlive : s''.live ⊆ s'.live)
    (hpkt : s''.pkt = s'.pkt) : s.Inherits s'' := by
  intro q hq b hb
  rw [hpkt] at hb
  exact h q (hlive hq) b hb

omit [DecidableEq π] [DecidableEq σ] in
theorem Inherits.refl (s : Store π σ) : s.Inherits s := fun p hp _ ha => ⟨p, hp, ha⟩

/-- A packet that keeps its pointer. -/
theorem Inherits.put_same {t : Pkt σ} (hp : p ∈ s.live) (ht : t.p_sptr = (s.pkt p).p_sptr) :
    s.Inherits (s.put p t) :=
  (Inherits.refl s).put fun _ ha => ⟨p, hp, ht ▸ ha⟩

omit [DecidableEq π] in
theorem free_inherits (s : Store π σ) (a : σ) : s.Inherits (s.free a) :=
  (Inherits.refl s).congr (Finset.Subset.refl _) rfl

omit [DecidableEq π] in
theorem setShared_inherits (s : Store π σ) (a : σ) (b : SharedBuf) : s.Inherits (s.setShared a b) :=
  (Inherits.refl s).congr (Finset.Subset.refl _) rfl

theorem copy_inherits {q : π} (hp : p ∈ s.live) (hs' : s.copy e p q = .ok s') : s.Inherits s' := by
  have hput : s.Inherits (s.put q ((s.pkt p).copied e)) :=
    (Inherits.refl s).put fun b hb => ⟨p, hp, hb⟩
  simp only [copy] at hs'
  split at hs'
  · split at hs'
    · cases hs'
      exact hput.congr (Finset.Subset.refl _) rfl
    · cases hs'
  · cases hs'
    exact hput

theorem release_inherits (hs' : s.release p = .ok s') : s.Inherits s' := by
  have herase : s.Inherits { s with live := s.live.erase p } :=
    (Inherits.refl s).congr (Finset.erase_subset p s.live) rfl
  simp only [release] at hs'
  split at hs'
  · split at hs'
    · cases hs'
      split
      · exact herase.congr (Finset.Subset.refl _) rfl
      · exact herase.congr (Finset.Subset.refl _) rfl
    · cases hs'
  · cases hs'
    exact herase

theorem pkt_sdeattach_inherits {r : Int} (hp : p ∈ s.live) (hs' : s.pkt_sdeattach p = .ok (r, s')) :
    s.Inherits s' := by
  simp only [pkt_sdeattach] at hs'
  split at hs'
  · split at hs'
    next b c _ =>
      split at hs'
      · cases hs'
        exact (free_inherits s b).put fun d hd => ⟨p, hp, hd⟩
      · cases hs'
        exact (setShared_inherits s b _).put fun d hd => absurd hd (by simp)
    · cases hs'
  · cases hs'
    exact Inherits.refl s

theorem pkt_sprepend_inherits {data : Ptr σ} {len r : Int} (hp : p ∈ s.live)
    (hs' : s.pkt_sprepend e p data len = .ok (r, s')) : s.Inherits s' := by
  simp only [pkt_sprepend] at hs'
  split at hs'
  · split at hs'
    next b c _ =>
      split at hs'
      · cases hs'
        exact (setShared_inherits s b _).put fun d hd => ⟨p, hp, hd⟩
      · cases hs'
        exact Inherits.refl s
    · cases hs'
  · cases hs'
    exact Inherits.refl s

end Store

/-! ### The blank pbufs -/

namespace SharedStore

variable {w w' : SharedStore π σ} {cs : List (SharedCall π σ)}

/-- A pbuf that nothing was stored in. -/
def BlankAt (w : SharedStore π σ) (a : σ) : Prop :=
  (w.cell a).isSInfo = false ∧ (w.cell a).p_dat = PLEN ∧ ∀ name, w.stored a name = none

/-- Nothing was stored in the shared pbuf of any packet. -/
def Blank (w : SharedStore π σ) : Prop :=
  ∀ p ∈ w.store.live, ∀ a, (w.store.pkt p).p_sptr = some a → w.BlankAt a

theorem no_room (t : Abi) : ¬ (PLEN : Int) - t.INFOSIZE ≥ t.p_sbuf := by
  cases t <;> decide

theorem pkt_sgetinfo_blank (h : w.Blank) (hp : p ∈ w.store.live)
    (ha : (w.store.pkt p).p_sptr = some a) (hmem : a ∈ w.store.alloc) (iname : List Byte) :
    w.pkt_sgetinfo e p iname = .ok none := by
  unfold pkt_sgetinfo
  rw [ha]
  simp only [Store.deref_of_mem hmem, (h p hp a ha).1, Bool.false_eq_true, if_false]

/-- `pkt_saddinfo` stores nothing. -/
theorem pkt_saddinfo_blank (h : w.Blank) (hp : p ∈ w.store.live) (iname info : List Byte) :
    w.pkt_saddinfo e p iname info = .ok (-1, w) ∨
      w.pkt_saddinfo e p iname info = .error .badPointer := by
  unfold pkt_saddinfo
  split
  · exact .inl rfl
  · cases ha : (w.store.pkt p).p_sptr with
    | none =>
      have hget : w.pkt_sgetinfo e p iname = .ok none := by simp only [pkt_sgetinfo, ha]
      simp only [hget, true_or]
    | some a =>
      by_cases hmem : a ∈ w.store.alloc
      · have hroom : ¬ (w.cell a).p_dat - e.abi.INFOSIZE ≥ e.abi.p_sbuf := by
          rw [(h p hp a ha).2.1]
          exact no_room e.abi
        simp only [pkt_sgetinfo_blank h hp ha hmem, Store.deref_of_mem hmem, if_neg hroom, true_or]
      · have hderef : w.store.deref (some a) = .error .badPointer := by
          simp only [Store.deref, if_neg hmem]
        have hget : w.pkt_sgetinfo e p iname = .error .badPointer := by
          simp only [pkt_sgetinfo, ha, hderef]
        simp only [hget, or_true]

omit [DecidableEq π] [DecidableEq σ] in
theorem Blank.of_inherits {store : Store π σ} (h : w.Blank) (hs : w.store.Inherits store) :
    Blank { w with store } := by
  intro p hp a ha
  obtain ⟨q, hq, hqa⟩ := hs p hp a ha
  exact h q hq a hqa

theorem Blank.pkt_sattach (h : w.Blank) (hp : p ∈ w.store.live) {len : Int} (ha : a ∉ w.store.alloc) :
    Blank { w.attach e (.pkt_sattach p len a) with store := (w.store.pkt_sattach e p len a).2 } := by
  by_cases hshared : (w.store.pkt p).withShared = true
  · simpa only [attach, Store.pkt_sattach, hshared, if_true] using h
  · intro q hq b hb
    simp only [attach, Store.pkt_sattach, if_neg hshared] at hq hb ⊢
    rcases eq_or_ne b a with rfl | hba
    · simp [BlankAt, SharedCell.sget]
    · have hold : w.BlankAt b := by
        rcases eq_or_ne q p with rfl | hqp
        · rw [Store.pkt_put_self] at hb
          exact absurd (Option.some.inj hb).symm hba
        · rw [Store.pkt_put_of_ne hqp] at hb
          rw [Store.live_put] at hq
          exact h q ((Finset.mem_insert.1 hq).resolve_left hqp) b hb
      simpa only [BlankAt, Function.update_of_ne hba] using hold

/-- No call stores anything. -/
theorem Blank.step (h : w.Blank) {c : SharedCall π σ} (hc : w.Allowed c)
    (hstep : w.step e c = .ok w') : w'.Blank := by
  cases c with
  | pkt_saddinfo p iname info =>
    obtain ⟨r, hr, rfl⟩ := Outcome.of_map_eq_ok hstep
    rcases pkt_saddinfo_blank h hc.1 iname info with hsame | herr
    · rw [hsame] at hr
      cases hr
      exact h
    · rw [herr] at hr
      cases hr
  | base c =>
    obtain ⟨store, hcall, rfl⟩ := Outcome.of_map_eq_ok hstep
    cases c with
    | new p =>
      cases hcall
      exact h.of_inherits ((Store.Inherits.refl _).put fun b hb => absurd hb (by simp))
    | copy p q => exact h.of_inherits (Store.copy_inherits hc.1 hcall)
    | delete p => exact h.of_inherits (Store.release_inherits hcall)
    | pkt_prepend p data =>
      obtain ⟨hdr, -, rfl⟩ := Store.pkt_prepend_eq_ok hcall
      exact h.of_inherits (Store.Inherits.put_same hc rfl)
    | pkt_seek p offset =>
      cases hcall
      exact h.of_inherits (Store.Inherits.put_same hc rfl)
    | pkt_sattach p len b =>
      cases hcall
      exact h.pkt_sattach hc.1 hc.2
    | pkt_sdeattach p =>
      obtain ⟨⟨r, store⟩, hr, rfl⟩ := Outcome.of_map_eq_ok hcall
      exact h.of_inherits (Store.pkt_sdeattach_inherits hc hr)
    | pkt_sprepend p data len =>
      obtain ⟨⟨r, store⟩, hr, rfl⟩ := Outcome.of_map_eq_ok hcall
      exact h.of_inherits (Store.pkt_sprepend_inherits hc hr)

omit [DecidableEq π] [DecidableEq σ] in
theorem blank_empty (pkt : π → Pkt σ) (sbuf : σ → SharedBuf) (cell : σ → SharedCell) :
    (empty pkt sbuf cell).Blank :=
  fun p hp => absurd hp (Finset.notMem_empty p)

omit [DecidableEq π] [DecidableEq σ] in
/-- A blank pbuf has room for an empty value. -/
theorem BlankAt.room (h : w.BlankAt a) : (w.cell a).Room e [] := by
  unfold SharedCell.Room
  rw [h.2.1]
  cases e.abi <;> decide

/-- Nothing that a blank pbuf has room for is stored in it. -/
theorem not_works (h : w.Blank) (hp : p ∈ w.store.live) (ha : (w.store.pkt p).shares = some a) :
    ¬ w.Works e p a := by
  intro hworks
  have hptr := (Pkt.shares_eq_some.1 ha).2
  obtain ⟨w', hadd⟩ := hworks.added [] [] List.not_mem_nil (Nat.zero_le _) (h p hp a hptr).room
  rcases pkt_saddinfo_blank h hp (e := e) [] [] with hfail | hfail
  · rw [hfail] at hadd
    cases hadd
  · rw [hfail] at hadd
    cases hadd

theorem run_blank (pkt : π → Pkt σ) (sbuf : σ → SharedBuf) (cell : σ → SharedCell)
    (h : Run.Along (step e) Allowed (empty pkt sbuf cell) cs) :
    Run.Always (step e) Blank (empty pkt sbuf cell) cs :=
  Run.Always.of_along (fun _ _ _ hw hc hstep => hw.step hc hstep) (blank_empty pkt sbuf cell) h

/-- In every run of calls the attributes of shared data work for no packet with a shared pbuf. -/
theorem run_never_works (pkt : π → Pkt σ) (sbuf : σ → SharedBuf) (cell : σ → SharedCell)
    (h : Run.Along (step e) Allowed (empty pkt sbuf cell) cs) :
    Run.Always (step e) (fun w => ∀ p ∈ w.store.live, ∀ a, (w.store.pkt p).shares = some a →
      ¬ w.Works e p a) (empty pkt sbuf cell) cs := by
  refine (run_blank pkt sbuf cell h).mono fun w hw p hp a ha => ?_
  exact not_works hw hp ha

/-- A packet with shared data, its copy, and two attributes for them. -/
theorem run_never_works_copied :
    Run.Always (step ⟨.x86_64, 1024, fun _ => 0⟩)
      (fun w => ∀ p ∈ w.store.live, ∀ a, (w.store.pkt p).shares = some a →
        ¬ w.Works ⟨.x86_64, 1024, fun _ => 0⟩ p a)
      (empty (fun _ : Fin 2 => ⟨Pbuf.new ⟨.x86_64, 1024, fun _ => 0⟩, false, none⟩)
        (fun _ : Fin 1 => ⟨0, 0, 0, fun _ => 0⟩) fun _ => ⟨true, 0, fun _ => 0⟩)
      [.base (.new 0), .base (.pkt_sattach 0 100 0), .pkt_saddinfo 0 [68, 83] [1, 2],
        .base (.copy 0 1), .pkt_saddinfo 1 [68, 83] [3]] :=
  run_never_works _ _ _ (by decide +kernel)

/-- The first attribute of a new shared pbuf is refused. -/
theorem sattach_saddinfo_refused :
    ¬ Run.Always (step ⟨.x86_64, 1024, fun _ => 0⟩)
      (fun w => ∀ p ∈ w.store.live, ∀ a, (w.store.pkt p).shares = some a →
        w.Works ⟨.x86_64, 1024, fun _ => 0⟩ p a)
      (empty (fun _ : Fin 1 => ⟨Pbuf.new ⟨.x86_64, 1024, fun _ => 0⟩, false, none⟩)
        (fun _ : Fin 1 => ⟨0, 0, 0, fun _ => 0⟩) fun _ => ⟨false, 0, fun _ => 0⟩)
      [.base (.new 0), .base (.pkt_sattach 0 100 0)] := by
  intro h
  have hlast : (Run.exec (step ⟨.x86_64, 1024, fun _ => 0⟩)
      (empty (fun _ : Fin 1 => ⟨Pbuf.new ⟨.x86_64, 1024, fun _ => 0⟩, false, none⟩)
        (fun _ : Fin 1 => ⟨0, 0, 0, fun _ => 0⟩) fun _ => ⟨false, 0, fun _ => 0⟩)
      [.base (.new 0), .base (.pkt_sattach 0 100 0)]).map (fun w =>
        (decide (0 ∈ w.store.live), (w.store.pkt 0).shares, (w.cell 0).p_dat,
          (w.pkt_saddinfo ⟨.x86_64, 1024, fun _ => 0⟩ 0 [68, 83] [1, 2]).toOption.map Prod.fst)) =
      .ok (true, some 0, 128, some (-1)) := by decide +kernel
  obtain ⟨w, hw, hseen⟩ := h.exec_map hlast
  simp only [Prod.mk.injEq] at hseen
  obtain ⟨hlive, hshares, hdat, hadd⟩ := hseen
  obtain ⟨w', hone⟩ := (hw 0 (of_decide_eq_true hlive) 0 hshares).added [68, 83] [1, 2] (by decide)
    (by decide) (by rw [SharedCell.Room, hdat]; decide)
  rw [hone] at hadd
  have hne : (1 : Int) = -1 := Option.some.inj hadd
  exact absurd hne (by decide)

end SharedStore

end Packet
