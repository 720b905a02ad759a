import Nctuns.Ds.TokenBucket
import Nctuns.Lib.Outcome

/-!
# Proofs about the token bucket

The bucket tells the packets that it let in unmarked from the others by its tag, so its account is right
as long as no packet that it lets in unmarked already has an attribute of that name.
-/

open Packet (INFONAME)

namespace Ds

open Run Outcome

variable {b b' : Tokenbucket} {pkt : IpPacket} {event : Tokenbucket.Event}

namespace IpPacket

@[simp] theorem hasInfo_pkt_addinfo (p : IpPacket) (iname : List Char) :
    (p.pkt_addinfo iname).hasInfo iname = true := by
  unfold pkt_addinfo
  by_cases h : p.hasInfo iname = true
  · rw [if_pos h]
    exact h
  · rw [if_neg h]
    unfold hasInfo
    rw [List.contains_cons, beq_self_eq_true, Bool.true_or]

end IpPacket

namespace Tokenbucket

/-- The account, and the tag on exactly the packets that were let in marked. -/
structure Told (b : Tokenbucket) : Prop extends b.Accounts where
  told : ∀ h ∈ b.held, h.pkt.hasInfo b._ofp_tag = !h.unmarked

/-- What a call leaves as it is. -/
structure Same (b b' : Tokenbucket) : Prop where
  _size : b'._size = b._size
  _remark : b'._remark = b._remark
  _ofp_tag : b'._ofp_tag = b._ofp_tag

theorem Same.refl (b : Tokenbucket) : Same b b := ⟨rfl, rfl, rfl⟩

theorem Same.trans {c : Tokenbucket} (h : Same b b') (h' : Same b' c) : Same b c :=
  ⟨h'._size.trans h._size, h'._remark.trans h._remark, h'._ofp_tag.trans h._ofp_tag⟩

theorem Same.ip_len (h : Same b b') (pkt : IpPacket) : b'.ip_len pkt = b.ip_len pkt := by
  unfold Tokenbucket.ip_len
  rw [h._remark, h._ofp_tag]

/-- **Step lemma.** A packet that is let in is counted, if it is not marked. -/
theorem Told.enqueue (h : b.Told) (hpkt : b.Unmistaken (.input pkt))
    (henq : b.enqueue pkt = some b') :
    b'.Told ∧ Same b b' ∧ b'._tokens = b._tokens := by
  unfold Tokenbucket.enqueue at henq
  split at henq
  · cases henq
  next hroom =>
    have hroom : b._ql < b._maxQL := UInt32.not_le.1 hroom
    have hlt := UInt32.lt_iff_toNat_lt.1 hroom
    have hmax := b._maxQL.toNat_lt
    have hql : (b._ql + 1).toNat = b._ql.toNat + 1 := by
      rw [UInt32.toNat_add, show (1 : UInt32).toNat = 1 from rfl, Nat.mod_eq_of_lt (by omega)]
    have hqlEq := h._ql_eq
    have hinLe := UInt32.le_iff_toNat_le.1 h._in_le
    have hinEq := h._in_eq
    split at henq
    next hin =>
      obtain rfl := Option.some.inj henq
      refine ⟨⟨⟨?_, ?_, ?_, h._tokens_le⟩, ?_⟩, ⟨rfl, rfl, rfl⟩, rfl⟩
      · dsimp only
        rw [List.countP_append, hinEq]
        rfl
      · dsimp only
        rw [hql, hqlEq, List.length_append, List.length_singleton]
      · rw [UInt32.le_iff_toNat_le]
        dsimp only
        omega
      · intro x hx
        rcases List.mem_append.1 hx with hx | hx
        · exact h.told x hx
        · rw [List.mem_singleton.1 hx]
          exact pkt.hasInfo_pkt_addinfo b._ofp_tag
    next hin =>
      have hin : b._in < b._maxIN := UInt32.not_le.1 hin
      have hnew : (b._in + 1).toNat = b._in.toNat + 1 := by
        rw [UInt32.toNat_add, show (1 : UInt32).toNat = 1 from rfl, Nat.mod_eq_of_lt (by omega)]
      obtain rfl := Option.some.inj henq
      refine ⟨⟨⟨?_, ?_, ?_, h._tokens_le⟩, ?_⟩, ⟨rfl, rfl, rfl⟩, rfl⟩
      · dsimp only
        rw [List.countP_append, hnew, hinEq]
        rfl
      · dsimp only
        rw [hql, hqlEq, List.length_append, List.length_singleton]
      · rw [UInt32.le_iff_toNat_le]
        dsimp only
        omega
      · intro x hx
        rcases List.mem_append.1 hx with hx | hx
        · exact h.told x hx
        · rw [List.mem_singleton.1 hx]
          exact hpkt hroom hin

theorem Told.addTokens (h : b.Told) : b.addTokens.Told ∧ Same b b.addTokens := by
  unfold Tokenbucket.addTokens
  split
  next hle => exact ⟨⟨⟨h._in_eq, h._ql_eq, h._in_le, hle⟩, h.told⟩, ⟨rfl, rfl, rfl⟩⟩
  next => exact ⟨h, Same.refl b⟩

theorem Told.spend {tokens : UInt32} (h : b.Told) (htokens : tokens ≤ b._tokens) :
    { b with _tokens := tokens }.Told :=
  ⟨⟨h._in_eq, h._ql_eq, h._in_le, UInt32.le_trans htokens h._tokens_le⟩, h.told⟩

/-- **Step lemma.** The first packet leaves, and is taken off the account if it has no tag. -/
theorem Told.dequeue {x : Held} {held : List Held} (h : b.Told) (hheld : b.held = x :: held) :
    ∃ b', b.dequeue = some (x.pkt, b') ∧ b'.Told ∧ Same b b' ∧ b'._tokens = b._tokens ∧
      b'.held = held := by
  have hql := h._ql_eq
  rw [hheld, List.length_cons] at hql
  have hne : ¬ b._ql = 0 := by
    intro h0
    rw [h0] at hql
    exact absurd hql (Nat.succ_ne_zero _).symm
  have htold := h.told x (hheld ▸ List.mem_cons_self)
  have hcount := h._in_eq
  rw [hheld, List.countP_cons] at hcount
  have hsub : ∀ n : UInt32, 0 < n.toNat → (n - 1).toNat = n.toNat - 1 := by
    intro n hn
    refine UInt32.toNat_sub_of_le _ _ (UInt32.le_iff_toNat_le.2 ?_)
    exact hn
  refine ⟨{ b with
    _ql := b._ql - 1
    held := held
    _in := if x.pkt.hasInfo b._ofp_tag then b._in else b._in - 1 }, ?_, ?_, ⟨rfl, rfl, rfl⟩, rfl, rfl⟩
  · unfold Tokenbucket.dequeue
    rw [if_neg hne, hheld]
  have hle := List.countP_le_length (p := Held.unmarked) (l := held)
  have hqlNew : (b._ql - 1).toNat = held.length := by
    rw [hsub _ (by omega), hql]
    rfl
  have hinNew : (if x.pkt.hasInfo b._ofp_tag then b._in else b._in - 1).toNat =
      held.countP Held.unmarked := by
    rw [htold]
    cases hx : x.unmarked with
    | true =>
      rw [hx, if_pos rfl] at hcount
      rw [if_neg (by decide), hsub _ (by omega), hcount]
      rfl
    | false =>
      rw [hx, if_neg Bool.false_ne_true] at hcount
      rw [if_pos (by decide), hcount]
      rfl
  refine ⟨⟨hinNew, hqlNew, ?_, h._tokens_le⟩, ?_⟩
  · rw [UInt32.le_iff_toNat_le]
    dsimp only
    rw [hinNew, hqlNew]
    exact hle
  · intro y hy
    exact h.told y (hheld ▸ List.mem_cons_of_mem _ hy)

/-- **Loop lemma.** What is sent is paid for with tokens. -/
theorem Told.outputLoop {fuel : Nat} (h : b.Told) (sent : List IpPacket)
    (hfuel : b.held.length < fuel) :
    ∃ more b', Tokenbucket.outputLoop fuel b sent = .ok (sent ++ more, b') ∧ b'.Told ∧ Same b b' ∧
      b'._tokens.toNat + (more.map fun pkt => (b.ip_len pkt).toNat).sum = b._tokens.toNat := by
  induction fuel generalizing b sent with
  | zero => exact absurd hfuel (Nat.not_lt_zero _)
  | succ fuel ih =>
    unfold Tokenbucket.outputLoop
    cases hheld : b.held with
    | nil => exact ⟨[], b, by rw [List.append_nil]; rfl, h, Same.refl b, rfl⟩
    | cons x held =>
      have hhead : b.held.head? = some x := by rw [hheld, List.head?_cons]
      rw [← hheld, hhead]
      dsimp only
      by_cases hle : b.ip_len x.pkt ≤ b._tokens
      · have hsub := UInt32.toNat_sub_of_le _ _ hle
        have hleNat := UInt32.le_iff_toNat_le.1 hle
        have htokens : b._tokens - b.ip_len x.pkt ≤ b._tokens := by
          rw [UInt32.le_iff_toNat_le, hsub]
          exact Nat.sub_le _ _
        obtain ⟨b₁, hdeq, htold, hsame, htok, hrest⟩ := (h.spend htokens).dequeue hheld
        have hsame : Same b b₁ := ⟨hsame._size, hsame._remark, hsame._ofp_tag⟩
        rw [hheld, List.length_cons] at hfuel
        obtain ⟨more, b₂, hrun, htold₂, hsame₂, hpaid⟩ :=
          ih htold (sent ++ [x.pkt]) (by rw [hrest]; exact Nat.lt_of_succ_lt_succ hfuel)
        rw [if_pos hle, hdeq]
        dsimp only
        rw [hrun, List.append_assoc]
        refine ⟨x.pkt :: more, b₂, rfl, htold₂, hsame.trans hsame₂, ?_⟩
        have hcosts : (more.map fun pkt => (b₁.ip_len pkt).toNat) =
            more.map fun pkt => (b.ip_len pkt).toNat :=
          List.map_congr_left fun pkt _ => by rw [hsame.ip_len]
        rw [hcosts, htok, hsub] at hpaid
        rw [List.map_cons, List.sum_cons]
        omega
      · rw [if_neg hle]
        exact ⟨[], b, by rw [List.append_nil], h, Same.refl b, rfl⟩

/-- **Step lemma.** A call keeps the account and pays for what it sends. -/
theorem Told.call (h : b.Told) (hevent : b.Unmistaken event) :
    ∃ sent b', b.call event = .ok (sent, b') ∧ b'.Told ∧
      b'._tokens.toNat + (sent.map fun pkt => (b.ip_len pkt).toNat).sum =
        (b.arrive event)._tokens.toNat := by
  have htry : ∀ b₁ : Tokenbucket, b₁.Told → Same b b₁ → ∃ sent b', b₁.tryOutput = .ok (sent, b') ∧
      b'.Told ∧ b'._tokens.toNat + (sent.map fun pkt => (b.ip_len pkt).toNat).sum =
        b₁._tokens.toNat := by
    intro b₁ h₁ hsame
    obtain ⟨sent, b', hrun, htold, -, hpaid⟩ := h₁.outputLoop [] (Nat.lt_succ_self _)
    refine ⟨sent, b', hrun, htold, ?_⟩
    rw [← hpaid]
    refine congrArg (_ + ·) (congrArg List.sum (List.map_congr_left fun pkt _ => ?_))
    rw [hsame.ip_len]
  cases event with
  | input pkt =>
    unfold Tokenbucket.call arrive
    cases henq : b.enqueue pkt with
    | none =>
      refine ⟨[], b, by dsimp only; rw [henq], h, ?_⟩
      dsimp only
      rw [henq, List.map_nil, List.sum_nil, Nat.add_zero]
      rfl
    | some b₁ =>
      obtain ⟨htold, hsame, -⟩ := h.enqueue hevent henq
      dsimp only
      rw [henq]
      exact htry b₁ htold hsame
  | getToken =>
    obtain ⟨htold, hsame⟩ := h.addTokens
    exact htry b.addTokens htold hsame

theorem new_told (REMARK : Bool) (_tokenUnit _size _maxIN : UInt32) (phb : List Char)
    (nid port : Nat) (uninit : List Char) :
    (new REMARK _tokenUnit _size _maxIN phb nid port uninit).Told where
  _in_eq := rfl
  _ql_eq := rfl
  _in_le := UInt32.le_refl _
  _tokens_le := UInt32.le_iff_toNat_le.2 (Nat.zero_le _)
  told _ h := absurd h List.not_mem_nil

theorem Told.step (h : b.Told) (hevent : b.Unmistaken event) :
    ∃ b', b.step event = .ok b' ∧ b'.Told := by
  obtain ⟨sent, b', hcall, htold, -⟩ := h.call hevent
  exact ⟨b', by rw [Tokenbucket.step, hcall]; rfl, htold⟩

/-- **The account of the bucket.** In a run in which no packet that is let in unmarked already has the
    tag, the account is right in every state, and every call pays for what it sends. -/
theorem run_accounts (REMARK : Bool) (_tokenUnit _size _maxIN : UInt32) (phb : List Char)
    (nid port : Nat) (uninit : List Char) (events : List Event)
    (h : Along step Unmistaken (new REMARK _tokenUnit _size _maxIN phb nid port uninit) events) :
    (∃ b, exec step (new REMARK _tokenUnit _size _maxIN phb nid port uninit) events = .ok b) ∧
    Always step Accounts (new REMARK _tokenUnit _size _maxIN phb nid port uninit) events ∧
    Along step Pays (new REMARK _tokenUnit _size _maxIN phb nid port uninit) events := by
  have hnew := new_told REMARK _tokenUnit _size _maxIN phb nid port uninit
  have hkeep : ∀ (b : Tokenbucket) (event : Event) (b' : Tokenbucket),
      b.Told → b.Unmistaken event → b.step event = .ok b' → b'.Told := by
    intro b event b' hb hevent hstep
    obtain ⟨b₁, hstep₁, htold⟩ := hb.step hevent
    obtain rfl : b₁ = b' := Except.ok.inj (hstep₁.symm.trans hstep)
    exact htold
  refine ⟨exec_ok_of_along (fun _ _ hb hevent => Told.step hb hevent) hnew h, ?_, ?_⟩
  · exact (Always.of_along hkeep hnew h).mono fun b hb => hb.toAccounts
  · refine Along.of_inv hkeep (fun b event hb hevent => ?_) hnew h
    intro sent b' hcall
    obtain ⟨sent₁, b₁, hcall₁, -, hpaid⟩ := hb.call hevent
    obtain ⟨rfl, rfl⟩ := Prod.mk.inj (Except.ok.inj (hcall₁.symm.trans hcall))
    exact hpaid

/-- A bucket of two unmarked packets at most: the third packet is marked and sent without tokens. -/
theorem run_accounts_three :
    Always step Accounts (new true 500 500 2 ['A', 'F', '1', '1'] 100 2 [])
      [.input ⟨1, 40, 300, []⟩, .input ⟨2, 40, 300, []⟩, .input ⟨3, 40, 300, []⟩, .getToken] := by
  exact (run_accounts true 500 500 2 ['A', 'F', '1', '1'] 100 2 [] _ (by decide +kernel)).2.1

/-- A packet with the mark of port 1 of the same node is let in by port 2 and not taken off `_in`. -/
theorem not_accounts : ¬ Always step Accounts (new true 500 500 5 ['A', 'F', '1', '1'] 100 2 [])
    [.getToken, .input ⟨1, 40, 100, [(ofp_tag 100 1).take INFONAME]⟩] := by
  intro h
  obtain ⟨b, hb, hsee⟩ := h.exec_map (show (exec step (new true 500 500 5 ['A', 'F', '1', '1'] 100 2 [])
    [.getToken, .input ⟨1, 40, 100, [(ofp_tag 100 1).take INFONAME]⟩]).map
      (fun b => (b._in.toNat, b.held)) = .ok (1, []) by decide +kernel)
  obtain ⟨hin, hheld⟩ := Prod.mk.inj hsee
  have hcount := hb._in_eq
  rw [hin, hheld] at hcount
  exact absurd hcount (by decide)

end Tokenbucket

end Ds
