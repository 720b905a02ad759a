import Nctuns.Dsr.RouteCache
import Nctuns.Lib.Keyed

/-!
# Proofs about the route cache

Both erasures invalidate a set of slots: `eraseLink` all those that it has to, `erase` the first one. An
invalid slot below `size` stays invalid whatever is called.
-/

namespace Dsr

variable {c c' : RouteCache} {p : Route → Bool} {i j k : Nat} {dst : UInt64} {r : Route}

/-- A slot holds a route where its address is valid. -/
theorem RouteCacheEntry.live_iff {e : RouteCacheEntry} :
    e.live = true ↔ e.ip_addr ≠ IP_invalid_addr.toUInt64 := by
  unfold RouteCacheEntry.live
  simp

theorem pos_of_mem_slots (h : i ∈ slots) : i ≠ 0 := by
  rw [List.mem_range'_1] at h
  omega

/-- The slots of the cache. -/
theorem mem_slots (h : 1 ≤ i) (h' : i < MAX_ROUTE_CACHE_ENTRY) : i ∈ slots := by
  rw [List.mem_range'_1]
  omega

namespace RouteCache

/-! ### Finding an entry -/

/-- `find` ends at the first slot of the node, or at slot 0. -/
theorem find_cases (c : RouteCache) (node : UInt64) :
    (c.find node = 0 ∧ ∀ i ∈ slots, (c.cache i).ip_addr ≠ node) ∨
      (c.find node ∈ slots ∧ (c.cache (c.find node)).ip_addr = node) := by
  unfold find
  cases hf : slots.find? fun i => decide ((c.cache i).ip_addr = node) with
  | none =>
    refine .inl ⟨rfl, fun i hi => ?_⟩
    simpa using List.find?_eq_none.1 hf i hi
  | some i =>
    refine .inr ⟨List.mem_of_find?_eq_some hf, ?_⟩
    simpa using List.find?_some hf

/-- A node has the route of its only entry. -/
theorem findRoute_iff (h : c.Wf) (hdst : dst ≠ IP_invalid_addr.toUInt64) :
    c.findRoute dst = some r ↔
      ∃ i ∈ slots, (c.cache i).ip_addr = dst ∧ (c.cache i).route = r := by
  unfold findRoute
  rcases c.find_cases dst with ⟨hzero, hnone⟩ | ⟨hmem, hip⟩
  · simp only [hzero]
    constructor
    · intro hr
      simp at hr
    · rintro ⟨i, hi, hip, -⟩
      exact absurd hip (hnone i hi)
  · have hne : c.find dst ≠ 0 := pos_of_mem_slots hmem
    simp only [if_pos hne]
    constructor
    · intro hr
      exact ⟨c.find dst, hmem, hip, Option.some.inj hr⟩
    · rintro ⟨i, hi, hip', rfl⟩
      have hlive : (c.cache i).live = true := RouteCacheEntry.live_iff.2 (hip' ▸ hdst)
      rw [h.uniq i hi _ hmem hlive (hip'.trans hip.symm)]

/-! ### The shape of a cache -/

/-- An empty cache. -/
theorem new_wf : new.Wf where
  size_pos := le_rfl
  size_le := by decide
  unused _ _ := rfl
  uniq _ _ _ _ h := by cases h

/-- An entry rewritten without its address. -/
theorem Wf.rewrite (h : c.Wf) {e : RouteCacheEntry} (he : e.ip_addr = (c.cache i).ip_addr) :
    (c.write i e).Wf := by
  have hip : ∀ k, ((c.write i e).cache k).ip_addr = (c.cache k).ip_addr := by
    intro k
    by_cases hk : k = i
    · subst hk
      simpa [write] using he
    · simp [write, hk]
  have hlive : ∀ k, ((c.write i e).cache k).live = (c.cache k).live := by
    intro k
    unfold RouteCacheEntry.live
    rw [hip k]
  refine ⟨h.size_pos, h.size_le, fun k hk => (hlive k).trans (h.unused k hk), ?_⟩
  intro k hk j hj hl heq
  rw [hip, hip] at heq
  exact h.uniq k hk j hj ((hlive k).symm.trans hl) heq

/-- Some entries invalidated. -/
structure Erased (c c' : RouteCache) (S : Nat → Prop) : Prop where
  size : c'.size = c.size
  route : ∀ k, (c'.cache k).route = (c.cache k).route
  gone : ∀ k, S k → (c'.cache k).live = false
  kept : ∀ k, ¬ S k → (c'.cache k).ip_addr = (c.cache k).ip_addr

/-- What is left is not erased, and is as it was. -/
theorem Erased.ip_addr {S : Nat → Prop} (h : Erased c c' S) (hlive : (c'.cache k).live = true) :
    ¬ S k ∧ (c'.cache k).ip_addr = (c.cache k).ip_addr := by
  have hk : ¬ S k := by
    intro hk
    simp [h.gone k hk] at hlive
  exact ⟨hk, h.kept k hk⟩

/-- What is left was there. -/
theorem Erased.live {S : Nat → Prop} (h : Erased c c' S) (hlive : (c'.cache k).live = true) :
    (c.cache k).live = true := by
  rw [RouteCacheEntry.live_iff] at hlive ⊢
  rwa [← (h.ip_addr (RouteCacheEntry.live_iff.2 hlive)).2]

/-- Erasing keeps the cache well formed. -/
theorem Erased.wf {S : Nat → Prop} (h : Erased c c' S) (hc : c.Wf) : c'.Wf where
  size_pos := h.size ▸ hc.size_pos
  size_le := h.size ▸ hc.size_le
  unused k hk := by
    by_contra hlive
    rw [Bool.not_eq_false] at hlive
    have hdead := hc.unused k (h.size ▸ hk)
    rw [h.live hlive] at hdead
    cases hdead
  uniq i hi j hj hlive heq := by
    have hj' : (c'.cache j).live = true := by
      rw [RouteCacheEntry.live_iff] at hlive ⊢
      rwa [← heq]
    rw [(h.ip_addr hlive).2, (h.ip_addr hj').2] at heq
    exact hc.uniq i hi j hj (h.live hlive) heq

/-- One slot is erased. -/
theorem invalidate_erased (c : RouteCache) (i : Nat) : Erased c (c.invalidate i) (· = i) where
  size := rfl
  route k := by
    by_cases hk : k = i
    · subst hk
      simp [invalidate, write]
    · simp [invalidate, write, hk]
  gone := by
    rintro k rfl
    simp [invalidate, write, RouteCacheEntry.live]
  kept k hk := by simp [invalidate, write, hk]

theorem Erased.refl (c : RouteCache) : Erased c c fun _ => False :=
  ⟨rfl, fun _ => rfl, fun _ h => h.elim, fun _ _ => rfl⟩

/-- Two erasures. -/
theorem Erased.trans {c'' : RouteCache} {S T : Nat → Prop} (h : Erased c c' S)
    (h' : Erased c' c'' T) : Erased c c'' fun k => S k ∨ T k where
  size := h'.size.trans h.size
  route k := (h'.route k).trans (h.route k)
  gone k hk := by
    by_cases hT : T k
    · exact h'.gone k hT
    · have hdead := h.gone k (hk.resolve_right hT)
      unfold RouteCacheEntry.live at hdead ⊢
      rwa [h'.kept k hT]
  kept k hk := by
    rw [not_or] at hk
    exact (h'.kept k hk.2).trans (h.kept k hk.1)

/-- The same slots. -/
theorem Erased.congr {S T : Nat → Prop} (h : Erased c c' S) (hST : ∀ k, S k ↔ T k) :
    Erased c c' T :=
  ⟨h.size, h.route, fun k hk => h.gone k ((hST k).2 hk), fun k hk =>
    h.kept k fun hS => hk ((hST k).1 hS)⟩

/-- A loop over slots that invalidates the live ones with a route in `p`. -/
theorem foldl_erased (p : Route → Bool) (is : List Nat) (c : RouteCache) :
    Erased c
      (is.foldl (fun c i => if (c.cache i).live && p (c.cache i).route then c.invalidate i else c) c)
      fun k => k ∈ is ∧ (c.cache k).live = true ∧ p (c.cache k).route = true := by
  induction is generalizing c with
  | nil => exact (Erased.refl c).congr (by simp)
  | cons i is ih =>
    rw [List.foldl_cons]
    by_cases hhit : ((c.cache i).live && p (c.cache i).route) = true
    · rw [if_pos hhit]
      rw [Bool.and_eq_true] at hhit
      refine ((c.invalidate_erased i).trans (ih (c.invalidate i))).congr fun k => ?_
      by_cases hk : k = i
      · subst hk
        simp [hhit]
      · simp [hk, invalidate, write]
    · rw [if_neg hhit]
      rw [Bool.and_eq_true] at hhit
      refine (ih c).congr fun k => ?_
      by_cases hk : k = i
      · subst hk
        constructor
        · rintro ⟨-, hl, hp⟩
          exact absurd ⟨hl, hp⟩ hhit
        · rintro ⟨-, hl, hp⟩
          exact absurd ⟨hl, hp⟩ hhit
      · simp [hk]

/-- The links are looked for in every entry. -/
theorem eraseLink_erased (c : RouteCache) (from_ to_ : UInt64) :
    Erased c (c.eraseLink from_ to_) (c.Hit (Route.usesLink from_ to_)) :=
  foldl_erased (Route.usesLink from_ to_) slots c

/-- The first hop is looked for up to the first entry that has it. -/
theorem erase_erased (c : RouteCache) (to_ : UInt64) :
    ∃ S, Erased c (c.erase to_) S ∧ (∀ k, S k → c.Hit (Route.firstHop to_) k) ∧
      (∀ i j, S i → S j → i = j) ∧ ∀ k, c.Hit (Route.firstHop to_) k → ∃ i, S i := by
  unfold erase
  cases hf : slots.find? fun i => (c.cache i).live && (c.cache i).route.firstHop to_ with
  | none =>
    refine ⟨fun _ => False, Erased.refl c, fun _ h => h.elim, fun _ _ h => h.elim, fun k hk => ?_⟩
    exact absurd (by simp [hk.2.1, hk.2.2]) (List.find?_eq_none.1 hf k hk.1)
  | some i =>
    refine ⟨(· = i), c.invalidate_erased i, ?_, fun _ _ h h' => h.trans h'.symm, fun _ _ => ⟨i, rfl⟩⟩
    rintro k rfl
    have hhit := List.find?_some hf
    rw [Bool.and_eq_true] at hhit
    exact ⟨List.mem_of_find?_eq_some hf, hhit⟩

/-! ### What an erasure does to the routes -/

/-- The slots that the call does not mean are kept. -/
theorem Erased.othersKept {S : Nat → Prop} (h : Erased c c' S) (hc : c.Wf)
    (hS : ∀ k, S k → c.Hit p k) : OthersKept c c' p := by
  intro dst r hdst hr hp
  obtain ⟨i, hi, hip, rfl⟩ := (findRoute_iff hc hdst).1 hr
  have hnot : ¬ S i := by
    intro hSi
    rw [(hS i hSi).2.2] at hp
    cases hp
  exact (findRoute_iff (h.wf hc) hdst).2 ⟨i, hi, (h.kept i hnot).trans hip, h.route i⟩

/-- All slots that the call means are gone where all of them are erased. -/
theorem Erased.gone_iff {S : Nat → Prop} (h : Erased c c' S) (hc : c.Wf) :
    Gone c' p ↔ ∀ k, c.Hit p k → S k := by
  constructor
  · intro hgone k hk
    by_contra hS
    have hdst : (c.cache k).ip_addr ≠ IP_invalid_addr.toUInt64 := RouteCacheEntry.live_iff.1 hk.2.1
    have hfind : c'.findRoute (c.cache k).ip_addr = some (c.cache k).route :=
      (findRoute_iff (h.wf hc) hdst).2 ⟨k, hk.1, h.kept k hS, h.route k⟩
    have hp := hgone _ _ hdst hfind
    rw [hk.2.2] at hp
    cases hp
  · intro hall dst r hdst hr
    obtain ⟨i, hi, hip, rfl⟩ := (findRoute_iff (h.wf hc) hdst).1 hr
    have hlive : (c'.cache i).live = true := RouteCacheEntry.live_iff.2 (hip ▸ hdst)
    rw [h.route i]
    by_contra hp
    rw [Bool.not_eq_false] at hp
    exact (h.ip_addr hlive).1 (hall i ⟨hi, h.live hlive, hp⟩)

/-! ### Erased slots -/

/-- A slot that was filled and is not live. -/
def Dead (i : Nat) (c : RouteCache) : Prop :=
  c.Wf ∧ i < c.size ∧ (c.cache i).live = false

/-- **Add.** A route joins the cache. -/
theorem addRoute_spec (hc : c.Wf) {now : UInt64} {route : Route}
    (h : c.addRoute now route = .ok c') :
    c'.Wf ∧ c.size ≤ c'.size ∧ ∀ i < c.size, (c'.cache i).ip_addr = (c.cache i).ip_addr := by
  unfold addRoute at h
  split at h
  · cases h
  · rename_i dst hlast
    rcases c.find_cases dst with ⟨hzero, hnone⟩ | ⟨hmem, hip⟩
    · simp only [hzero, ne_eq, not_true_eq_false, if_false] at h
      split at h
      · rename_i hroom
        obtain rfl := Except.ok.inj h
        have hdst : dst ≠ IP_invalid_addr.toUInt64 := by
          intro hdst
          have hdead := hc.unused c.size le_rfl
          have hlive := RouteCacheEntry.live_iff.2 (hdst ▸ hnone c.size (mem_slots hc.size_pos hroom))
          rw [hdead] at hlive
          cases hlive
        refine ⟨⟨Nat.succ_le_succ (Nat.zero_le _), hroom, fun k hk => ?_, fun k hk j hj hlive heq => ?_⟩,
          Nat.le_succ _,
          fun i hi => by simp [write, hi.ne]⟩
        · have hk : c.size + 1 ≤ k := hk
          have hne : k ≠ c.size := by omega
          simpa [write, hne] using hc.unused k (by omega)
        · by_cases hk' : k = c.size
          · subst hk'
            by_cases hj' : j = c.size
            · exact hj'.symm
            · simp only [write, Function.update_self, Function.update_of_ne hj'] at heq
              exact absurd heq.symm (hnone j hj)
          · by_cases hj' : j = c.size
            · subst hj'
              simp only [write, Function.update_self, Function.update_of_ne hk'] at heq
              exact absurd heq (hnone k hk)
            · simp only [write, Function.update_of_ne hk', Function.update_of_ne hj'] at hlive heq
              exact hc.uniq k hk j hj hlive heq
      · obtain rfl := Except.ok.inj h
        exact ⟨⟨hc.size_pos, hc.size_le, hc.unused, hc.uniq⟩, le_rfl, fun _ _ => rfl⟩
    · have hne : c.find dst ≠ 0 := pos_of_mem_slots hmem
      simp only [if_pos hne] at h
      split at h
      · obtain rfl := Except.ok.inj h
        refine ⟨hc.rewrite rfl, le_rfl, fun i _ => ?_⟩
        by_cases hi : i = c.find dst
        · simp [write, hi]
        · simp [write, hi]
      · obtain rfl := Except.ok.inj h
        exact ⟨hc, le_rfl, fun _ _ => rfl⟩

/-- A call keeps the cache well formed. -/
theorem call_wf (hc : c.Wf) {x : CacheCall} (h : c.call x = .ok c') : c'.Wf := by
  cases x with
  | addRoute now route => exact (addRoute_spec hc h).1
  | eraseLink from_ to_ =>
    obtain rfl := Except.ok.inj h
    exact (c.eraseLink_erased from_ to_).wf hc
  | erase to_ =>
    obtain rfl := Except.ok.inj h
    obtain ⟨S, hS, -⟩ := c.erase_erased to_
    exact hS.wf hc

theorem exec_wf {calls : List CacheCall} (h : Run.exec call new calls = .ok c) : c.Wf :=
  (Run.Always.of_step (fun _ _ _ hc hstep => call_wf hc hstep) new_wf calls).exec h

/-- A slot that is dead stays dead. -/
theorem Dead.call (h : Dead i c) {x : CacheCall} (hx : c.call x = .ok c') : Dead i c' := by
  obtain ⟨hc, hi, hdead⟩ := h
  have herased : ∀ {d : RouteCache} {S : Nat → Prop}, Erased c d S → Dead i d := by
    intro d S hS
    refine ⟨hS.wf hc, hS.size.symm ▸ hi, ?_⟩
    by_contra hlive
    rw [hS.live (Bool.not_eq_false _ ▸ hlive)] at hdead
    cases hdead
  cases x with
  | addRoute now route =>
    obtain ⟨hc', hsize, hip⟩ := addRoute_spec hc hx
    refine ⟨hc', hi.trans_le hsize, ?_⟩
    unfold RouteCacheEntry.live at hdead ⊢
    rwa [hip i hi]
  | eraseLink from_ to_ =>
    obtain rfl := Except.ok.inj hx
    exact herased (c.eraseLink_erased from_ to_)
  | erase to_ =>
    obtain rfl := Except.ok.inj hx
    obtain ⟨S, hS, -⟩ := c.erase_erased to_
    exact herased hS

/-- A dead slot is never written again. -/
theorem Dead.not_reusable (h : Dead i c) : ¬ c.Reusable i := by
  rintro ⟨calls, c', hexec, hlive⟩
  have hdead := (Run.Always.of_step (fun _ _ _ hd hstep => Dead.call hd hstep) h calls).exec hexec
  rw [hdead.2.2] at hlive
  cases hlive

/-- A route is within the size. -/
theorem lt_size_of_live (hc : c.Wf) (h : (c.cache i).live = true) : i < c.size := by
  by_contra hi
  rw [hc.unused i (not_lt.1 hi)] at h
  cases h

/-- Slots can be used again where none is erased. -/
theorem Erased.slotsReusable_iff {S : Nat → Prop} (h : Erased c c' S) (hc : c.Wf)
    (hS : ∀ k, S k → c.Hit p k) : SlotsReusable c c' ↔ ∀ k, ¬ S k := by
  constructor
  · intro hre k hk
    have hhit := hS k hk
    have hlt : k < c'.size := h.size.symm ▸ lt_size_of_live hc hhit.2.1
    exact Dead.not_reusable ⟨h.wf hc, hlt, h.gone k hk⟩
      (hre k hhit.1 hhit.2.1 (h.gone k hk))
  · intro hnone i _ hlive hdead
    unfold RouteCacheEntry.live at hlive hdead
    rw [h.kept i (hnone i), hlive] at hdead
    cases hdead

/-! ### The two erasures -/

/-- `erase` gets rid of one slot. -/
theorem erase_gone_iff (hc : c.Wf) (a : UInt64) :
    Gone (c.erase a) (Route.firstHop a) ↔
      ∀ i j, c.Hit (Route.firstHop a) i → c.Hit (Route.firstHop a) j → i = j := by
  obtain ⟨S, hS, hhit, huniq, hsome⟩ := c.erase_erased a
  rw [hS.gone_iff hc]
  constructor
  · intro hall i j hi hj
    exact huniq i j (hall i hi) (hall j hj)
  · intro hone k hk
    obtain ⟨i, hi⟩ := hsome k hk
    exact hone i k (hhit i hi) hk ▸ hi

/-- `erase` leaves a dead slot where it erases one. -/
theorem erase_slotsReusable_iff (hc : c.Wf) (a : UInt64) :
    SlotsReusable c (c.erase a) ↔ ∀ i, ¬ c.Hit (Route.firstHop a) i := by
  obtain ⟨S, hS, hhit, -, hsome⟩ := c.erase_erased a
  rw [hS.slotsReusable_iff hc hhit]
  constructor
  · intro hnone k hk
    obtain ⟨i, hi⟩ := hsome k hk
    exact hnone i hi
  · intro hnone k hk
    exact hnone k (hhit k hk)

/-- **Erase.**. -/
theorem erase_invalidates_iff (hc : c.Wf) (a : UInt64) :
    Invalidates c (c.erase a) (Route.firstHop a) ↔ ∀ i, ¬ c.Hit (Route.firstHop a) i := by
  obtain ⟨S, hS, hhit, -, -⟩ := c.erase_erased a
  constructor
  · intro h
    exact (erase_slotsReusable_iff hc a).1 h.2.2
  · intro hnone
    refine ⟨(erase_gone_iff hc a).2 fun i _ hi => absurd hi (hnone i), hS.othersKept hc hhit, ?_⟩
    exact (erase_slotsReusable_iff hc a).2 hnone

/-- **Erase a link.**. -/
theorem eraseLink_invalidates_iff (hc : c.Wf) (a b : UInt64) :
    Invalidates c (c.eraseLink a b) (Route.usesLink a b) ↔ ∀ i, ¬ c.Hit (Route.usesLink a b) i := by
  have hS := c.eraseLink_erased a b
  constructor
  · intro h
    exact (hS.slotsReusable_iff hc fun _ hk => hk).1 h.2.2
  · intro hnone
    refine ⟨(hS.gone_iff hc).2 fun _ hk => hk, hS.othersKept hc fun _ hk => hk, ?_⟩
    exact (hS.slotsReusable_iff hc fun _ hk => hk).2 hnone

/-- **Invalidation.** The erasure of a first hop removes all its routes exactly if there is at most one,
    the erasure of a link always does, and both leave the other routes. No erased slot is ever used
    again, so either does all that it should exactly if it has nothing to erase. -/
theorem invalidates_iff (hc : c.Wf) (a b : UInt64) :
    (Gone (c.erase a) (Route.firstHop a) ↔
        ∀ i j, c.Hit (Route.firstHop a) i → c.Hit (Route.firstHop a) j → i = j) ∧
      OthersKept c (c.erase a) (Route.firstHop a) ∧
      (Invalidates c (c.erase a) (Route.firstHop a) ↔ ∀ i, ¬ c.Hit (Route.firstHop a) i) ∧
      Gone (c.eraseLink a b) (Route.usesLink a b) ∧
      OthersKept c (c.eraseLink a b) (Route.usesLink a b) ∧
      (Invalidates c (c.eraseLink a b) (Route.usesLink a b) ↔
        ∀ i, ¬ c.Hit (Route.usesLink a b) i) := by
  obtain ⟨S, hS, hhit, -, -⟩ := c.erase_erased a
  have hL := c.eraseLink_erased a b
  exact ⟨erase_gone_iff hc a, hS.othersKept hc hhit, erase_invalidates_iff hc a,
    (hL.gone_iff hc).2 fun _ hk => hk, hL.othersKept hc fun _ hk => hk,
    eraseLink_invalidates_iff hc a b⟩

/-- Two routes over one first hop, and a route over another. -/
def twoOverOne : List CacheCall :=
  [.addRoute 1 ⟨[7, 3], 0, by decide⟩, .addRoute 2 ⟨[7, 4], 0, by decide⟩,
    .addRoute 3 ⟨[8, 5], 0, by decide⟩]

/-- Two routes over one node. -/
theorem exec_twoOverOne :
    ∃ c, Run.exec call new twoOverOne = .ok c ∧ c.cache 1 = ⟨3, 1, ⟨[7, 3], 0, by decide⟩, 1⟩ ∧
      c.cache 2 = ⟨4, 1, ⟨[7, 4], 0, by decide⟩, 2⟩ ∧
      c.cache 3 = ⟨5, 1, ⟨[8, 5], 0, by decide⟩, 3⟩ :=
  ⟨_, rfl, rfl, rfl, rfl⟩

/-- After the erasure of the first hop the second route over it is still returned. -/
theorem second_route_kept : ∃ c, Run.exec call new twoOverOne = .ok c ∧
    ¬ Invalidates c (c.erase 7) (Route.firstHop 7) := by
  obtain ⟨c, hc, h1, h2, -⟩ := exec_twoOverOne
  refine ⟨c, hc, fun h => ?_⟩
  have hhit : c.Hit (Route.firstHop 7) 1 := ⟨by decide, by rw [h1]; rfl, by rw [h1]; rfl⟩
  have hhit' : c.Hit (Route.firstHop 7) 2 := ⟨by decide, by rw [h2]; rfl, by rw [h2]; rfl⟩
  exact absurd ((erase_gone_iff (exec_wf hc) 7).1 h.1 1 2 hhit hhit') (by decide)

/-- In the same cache the link between 8 and 5 is erased with all its routes, and no other route. -/
theorem invalidates_iff_twoOverOne : ∃ c, Run.exec call new twoOverOne = .ok c ∧
    Gone (c.eraseLink 8 5) (Route.usesLink 8 5) ∧
    OthersKept c (c.eraseLink 8 5) (Route.usesLink 8 5) := by
  obtain ⟨c, hc, -⟩ := exec_twoOverOne
  obtain ⟨-, -, -, hgone, hkept, -⟩ := invalidates_iff (exec_wf hc) 8 5
  exact ⟨c, hc, hgone, hkept⟩

end RouteCache

end Dsr
