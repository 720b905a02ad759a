import Nctuns.Switch.Proofs.SpanningTreeProofs

/-!
# The open links of a settled network

In a round of hello packets that changes nothing every switch knows its distance from the switch with
the least id, however old the vectors at its ports are: a claim is never better than the distance, and
of two neighbours the one that is nearer to the root sends. So an open link has a root port at one end.
-/

namespace SpanTree

open Sw

variable {V : Type} {net : Net V} {v w : V} {s s' : Sw} {n m : UInt8} {info : SpanINFO} {cs : List Call}

/-! ### States with the same vectors -/

theorem Same.refl (s : Sw) : Same s s := ⟨rfl, fun _ _ => rfl⟩

theorem Same.trans {s'' : Sw} (hl : s'.PortList = s.PortList) (h : Same s s') (h' : Same s' s'') :
    Same s s'' := by
  refine ⟨h'.1.trans h.1, fun n hn => ?_⟩
  rw [h'.2 n (hl ▸ hn), h.2 n hn]

theorem Same.sends (h : Same s s') (hnid : s'.nid = s.nid) (hn : n ∈ s.PortList) :
    s'.Sends n ↔ s.Sends n := by
  unfold Sends Designated
  rw [hnid, h.1, h.2 n hn]
  rfl

theorem Same.closes (h : Same s s') (hnid : s'.nid = s.nid) (hn : n ∈ s.PortList) :
    s'.Closes n ↔ s.Closes n := by
  rw [closes_iff, closes_iff, h.sends hnid hn, h.1]

theorem Same.mayOpen (h : Same s s') (hnid : s'.nid = s.nid) (hn : n ∈ s.PortList) :
    s'.MayOpen n ↔ s.MayOpen n := by
  unfold MayOpen
  rw [hnid, h.1, h.2 n hn]
  rfl

theorem Same.portState (h : Same s s') (hn : n ∈ s.PortList) :
    (s'.port n).PortState = (s.port n).PortState := by
  rw [h.2 n hn]

/-! ### Calls that change nothing -/

theorem mem_inbox {sw : V → Sw} {c : Call} (hc : c ∈ net.inbox sw w) :
    ∃ m v n pkt, net.peer w m = some (v, n) ∧
      (n, pkt) ∈ ((sw v).call .SendSpanTreePacket).packets ∧ c = .get m pkt := by
  obtain ⟨m, -, hm⟩ := List.mem_flatMap.1 hc
  cases hpeer : net.peer w m with
  | none =>
    rw [hpeer] at hm
    cases hm
  | some d =>
    obtain ⟨v, n⟩ := d
    rw [hpeer] at hm
    obtain ⟨⟨n', pkt⟩, hmem, hpkt⟩ := List.mem_filterMap.1 hm
    dsimp only at hpkt
    split at hpkt
    · rename_i hn
      subst hn
      cases hpkt
      exact ⟨m, v, n', pkt, hpeer, hmem, rfl⟩
    · cases hpkt

/-- Each of the calls meets a state with the same vectors, and leaves it so. -/
theorem Quiet.at {c : Call} (hnet : net.WellFormed) (hq : Quiet s cs) (hs : Sound net v s)
    (hok : ∀ c ∈ cs, CallOk net v c) (hc : c ∈ cs) : ∃ s', Sound net v s' ∧ Same s s' ∧ Same s' (s'.call c).sw := by
  induction cs generalizing s with
  | nil => cases hc
  | cons c₀ cs ih =>
    rcases List.mem_cons.1 hc with rfl | hc
    · exact ⟨s, hs, .refl s, hq.1⟩
    · have hs₁ := (hs.call hnet (hok c₀ List.mem_cons_self)).1
      obtain ⟨s', hs', hsame, hcall⟩ := ih hq.2 hs₁ (fun c hc => hok c (List.mem_cons_of_mem _ hc)) hc
      exact ⟨s', hs', .trans (hs₁.list.trans hs.list.symm) hq.1 hsame, hcall⟩

theorem Quiet.left {ds : List Call} (hq : Quiet s (cs ++ ds)) : Quiet s cs := by
  induction cs generalizing s with
  | nil => trivial
  | cons c cs ih => exact ⟨hq.1, ih hq.2⟩

theorem helloRound_ok {sw : V → Sw} (hnet : net.WellFormed) (hsound : ∀ v, Sound net v (sw v)) :
    ∀ c ∈ net.helloRound sw w, CallOk net w c := by
  intro c hc
  rcases List.mem_cons.1 hc with rfl | hc
  · trivial
  · obtain ⟨m, v, n, pkt, hpeer, hmem, rfl⟩ := mem_inbox hc
    cases pkt with
    | topChangeINFO => trivial
    | spanINFO i =>
      obtain ⟨hbridge, hbacked⟩ := ((hsound v).call (c := .SendSpanTreePacket) hnet trivial).2 n i hmem
      exact ⟨v, n, hpeer, hbridge, hbacked⟩

theorem fullRound_ok {sw : V → Sw} (hnet : net.WellFormed) (hsound : ∀ v, Sound net v (sw v)) :
    ∀ c ∈ net.fullRound sw w, CallOk net w c := by
  intro c hc
  rcases List.mem_append.1 hc with hc | hc
  · exact helloRound_ok hnet hsound c hc
  · obtain ⟨n, -, rfl⟩ := List.mem_map.1 hc
    trivial

/-- What a state is like that a round of hello packets does not change. -/
structure Still (net : Net V) (sw : V → Sw) : Prop where
  sound : ∀ v, Sound net v (sw v)
  closed : ∀ v, ∀ n ∈ net.ports v, (sw v).Closes n → ((sw v).port n).PortState = false
  heard : ∀ v n w m, net.peer v n = some (w, m) → (sw v).Sends n →
    ((sw w).port m).RootID = (sw v).SpanTreeTbl0.RootID ∧
      ((sw w).port m).Cost = (sw v).SpanTreeTbl0.Cost ∧ ((sw w).port m).Bridge = net.nid v ∧
      ¬ Precedes (sw v).SpanTreeTbl0.RootID ((sw v).SpanTreeTbl0.Cost + 1) (net.nid v)
        (sw w).SpanTreeTbl0.RootID (sw w).SpanTreeTbl0.Cost (sw w).SpanTreeTbl0.Bridge

theorem not_precedes_self (r c b : Int) : ¬ Precedes r c b r c b := by
  unfold Precedes
  omega

/-- A hello packet that changes nothing tells what the port knows, and nothing better than the root
    vector. -/
theorem heard_of_same (hnet : net.WellFormed) (hs : Sound net w s)
    (hok : CallOk net w (.get m (.spanINFO info))) (hsame : Same s (s.GetSpanTreePacket m info)) :
    (s.port m).RootID = info.RootID ∧ (s.port m).Cost = info.Cost ∧ (s.port m).Bridge = info.Bridge ∧
      ¬ Precedes info.RootID (info.Cost + 1) info.Bridge s.SpanTreeTbl0.RootID s.SpanTreeTbl0.Cost
        s.SpanTreeTbl0.Bridge := by
  have hrecord := hs.record_eq hnet hok
  obtain ⟨v, n, hpeer, hbridge, -⟩ := hok
  have hpos := hnet.nid_pos v
  have hmem : m ∈ s.PortList := hs.list ▸ hnet.peer_mem w m _ hpeer
  have hport := hsame.2 m hmem
  rw [getSpanTreePacket_port, if_pos rfl, hrecord] at hport
  simp only [SwPort.mk.injEq, true_and] at hport
  obtain ⟨hroot, hcost, hbridge', -⟩ := hport
  refine ⟨hroot.symm, hcost.symm, hbridge'.symm, fun hbetter => ?_⟩
  have hfollow : s.follow m info = s.SpanTreeTbl0 := by
    unfold follow
    split
    · rename_i hm
      rcases hs.rooted with ⟨h0, -, -⟩ | ⟨-, -, hr, hc⟩
      · exact absurd (hm.2.2.trans h0 ▸ hs.list ▸ hmem) (hnet.ports_pos w)
      · rw [← hm.2.2, ← hroot] at hr
        rw [← hm.2.2, ← hcost] at hc
        rw [← hr, ← hc]
    · rfl
  have htbl : improve (s.follow m info) m (record (s.port m) info) = s.SpanTreeTbl0 := hsame.1
  rw [hfollow, hrecord] at htbl
  unfold improve at htbl
  rw [if_pos ⟨by show info.Bridge ≠ 0; omega, hbetter⟩] at htbl
  rw [← htbl] at hbetter
  exact not_precedes_self _ _ _ hbetter

theorem still_of_quiet {sw : V → Sw} (hnet : net.WellFormed) (hsound : ∀ v, Sound net v (sw v))
    (hq : ∀ v, Quiet (sw v) (net.helloRound sw v)) : Still net sw := by
  have hok := fun v => helloRound_ok (w := v) hnet hsound
  have hsend : ∀ v, Call.SendSpanTreePacket ∈ net.helloRound sw v := fun v => List.mem_cons_self
  refine ⟨hsound, ?_, ?_⟩
  · intro v n hn hcloses
    obtain ⟨s', hs', hsame, hcall⟩ := (hq v).at hnet (hsound v) (hok v) (hsend v)
    have hnid := hs'.nid.trans (hsound v).nid.symm
    have hmem : n ∈ (sw v).PortList := (hsound v).list ▸ hn
    have hmem' : n ∈ s'.PortList := hs'.list ▸ hn
    obtain ⟨info, -, hsent⟩ := send_sent (hs'.nodup hnet)
    have hclosed := hsent.closed n hmem' ((hsame.closes hnid hmem).2 hcloses)
    have hstate := hcall.portState hmem'
    rw [← hsame.portState hmem, ← hstate]
    show (s'.SendSpanTreePacket.sw.port n).PortState = false
    rw [hclosed]
  · intro v n w m hpeer hsends
    have hpeer' := hnet.peer_symm v n w m hpeer
    obtain ⟨info, hclaims, hsent⟩ := send_sent ((hsound v).nodup hnet)
    have hpacket := (hsent.packets n info).2
      (.inr ⟨(hsound v).list ▸ hnet.peer_mem v n _ hpeer, hsends, rfl⟩)
    have hget : Call.get m (.spanINFO info) ∈ net.helloRound sw w := by
      refine List.mem_cons_of_mem _ (List.mem_flatMap.2 ⟨m, hnet.peer_mem w m _ hpeer', ?_⟩)
      rw [hpeer']
      exact List.mem_filterMap.2 ⟨(n, .spanINFO info), hpacket, if_pos rfl⟩
    obtain ⟨s', hs', hsame, hcall⟩ := (hq w).at hnet (hsound w) (hok w) hget
    obtain ⟨hroot, hcost, hbridge, hbetter⟩ := heard_of_same hnet hs' (hok w _ hget) hcall
    have hmem : m ∈ (sw w).PortList := (hsound w).list ▸ hnet.peer_mem w m _ hpeer'
    rw [hsame.1] at hbetter
    rw [hsame.2 m hmem] at hroot hcost hbridge
    obtain ⟨hroot', hcost', hbridge'⟩ := hclaims
    rw [(hsound v).nid] at hbridge'
    rw [← hroot', ← hcost', ← hbridge']
    exact ⟨hroot, hcost, hbridge, hbetter⟩
/-- A port that a full round schedules and does not change must stay closed. -/
theorem not_mayOpen_of_quiet {sw : V → Sw} (hnet : net.WellFormed) (hsound : ∀ v, Sound net v (sw v))
    (hq : Quiet (sw v) (net.fullRound sw v)) (hn : n ∈ (sw v).SendSpanTreePacket.opens) :
    ¬ (sw v).MayOpen n := by
  intro hmay
  obtain ⟨info, -, hsent⟩ := send_sent ((hsound v).nodup hnet)
  obtain ⟨hmem, hasks⟩ := ((hsent.opens n).1 hn).resolve_left List.not_mem_nil
  have hcall : Call.OpenSpanTreePort n ∈ net.fullRound sw v :=
    List.mem_append_right _ (List.mem_map.2 ⟨n, hn, rfl⟩)
  obtain ⟨s', hs', hsame, hcall⟩ := hq.at hnet (hsound v) (fullRound_ok hnet hsound) hcall
  have hnid := hs'.nid.trans (hsound v).nid.symm
  have hstate := hcall.portState (hs'.list ▸ (hsound v).list ▸ hmem : n ∈ s'.PortList)
  have hopened : (s'.OpenSpanTreePort n).sw.port n = { s'.port n with PortState := true } := by
    rw [(openSpanTreePort_same s' n).2, if_pos ⟨rfl, (hsame.mayOpen hnid hmem).2 hmay⟩]
  have htrue : (s'.port n).PortState = true := by
    rw [← hstate]
    show ((s'.OpenSpanTreePort n).sw.port n).PortState = true
    rw [hopened]
  have hfalse := hasks.1
  rw [← hsame.portState hmem, htrue] at hfalse
  cases hfalse

/-! ### The tree -/

namespace Still

variable {sw : V → Sw} (h : Still net sw)

include h

/-- An open port that is no root port sends. -/
theorem sends_of_open (hn : n ∈ net.ports v) (hopen : ((sw v).port n).PortState = true)
    (hport : (sw v).SpanTreeTbl0.RootPort ≠ n) : (sw v).Sends n := by
  by_contra hs
  have hclosed := h.closed v n hn (closes_iff.2 fun ha => ha.elim hs hport)
  rw [hclosed] at hopen
  cases hopen

/-- What the other end claimed, whether it still does or not. -/
theorem port_backed (hpeer : net.peer v n = some (w, m)) (hdata : ¬ NoData ((sw v).port n)) :
    Backed net w ((sw v).port n).RootID ((sw v).port n).Cost := by
  obtain ⟨w', m', hpeer', -, hbacked⟩ := ((h.sound v).heard n).resolve_left hdata
  rw [hpeer] at hpeer'
  cases hpeer'
  exact hbacked

/-- A port that does not send has a vector that is no worse than the claim of the switch. -/
theorem silent (hs : ¬ (sw v).Sends n) : ¬ NoData ((sw v).port n) ∧
    (((sw v).port n).RootID < (sw v).SpanTreeTbl0.RootID ∨
      (((sw v).port n).RootID = (sw v).SpanTreeTbl0.RootID ∧
        ((sw v).port n).Cost ≤ (sw v).SpanTreeTbl0.Cost)) := by
  refine ⟨fun hd => hs (.inr (.inl hd)), ?_⟩
  by_cases hport : (sw v).SpanTreeTbl0.RootPort = n
  · rcases (h.sound v).rooted with ⟨-, hid, -⟩ | ⟨-, -, hid, hcost⟩
    · exact absurd (.inl hid) hs
    · rw [hport] at hid hcost
      exact .inr ⟨hid.symm, by omega⟩
  · have hdes : ¬ (sw v).Designated ((sw v).port n) := fun hdes => hs (.inr (.inr ⟨hport, hdes⟩))
    unfold Designated Precedes at hdes
    omega

variable (hnet : net.WellFormed)

include hnet

theorem data_of_sends (hpeer : net.peer v n = some (w, m)) (hs : (sw v).Sends n) :
    ¬ NoData ((sw w).port m) := by
  obtain ⟨-, -, hbridge, -⟩ := h.heard v n w m hpeer hs
  have hpos := hnet.nid_pos v
  rintro ⟨-, -, h0⟩
  omega

variable {r : V} (hr : ∀ v, net.nid r ≤ net.nid v)

include hr

theorem root_claim : (sw r).SpanTreeTbl0.RootID = net.nid r ∧ (sw r).SpanTreeTbl0.Cost = 0 :=
  (h.sound r).own_claim hnet ((h.sound r).least hr)

/-- Within any distance from the root no claim is too large: either a neighbour that is nearer sends, or
    it has heard the switch itself claim a distance that is no larger. -/
theorem claim_le (k : Nat) : ∀ v ls, LinkGraph.Walk net.link v ls r → ls.length ≤ k →
    (sw v).SpanTreeTbl0.RootID = net.nid r ∧ (sw v).SpanTreeTbl0.Cost ≤ k := by
  have hclaim := h.root_claim hnet hr
  induction k with
  | zero =>
    intro v ls hwalk hlen
    rw [List.length_eq_zero_iff.1 (Nat.le_zero.1 hlen)] at hwalk
    cases hwalk
    exact ⟨hclaim.1, Int.le_of_eq hclaim.2⟩
  | succ k ih =>
    intro v ls hwalk hlen
    cases hwalk with
    | nil => exact ⟨hclaim.1, by omega⟩
    | @cons l _ u _ ls hl hrest =>
      obtain ⟨m, n, hpeer, -⟩ := hl
      have hpeer' := hnet.peer_symm v m u n hpeer
      rw [List.length_cons] at hlen
      obtain ⟨hid, hcost⟩ := ih u ls hrest (by omega)
      obtain ⟨r', -, -, hleast, -⟩ := (h.sound v).backed
      have hmin := hr r'
      by_cases hs : (sw u).Sends n
      · obtain ⟨-, -, -, hbetter⟩ := h.heard u n v m hpeer' hs
        unfold Precedes at hbetter
        omega
      · obtain ⟨hdata, hsilent⟩ := h.silent hs
        obtain ⟨r'', ls', hwalk', hid', hlen'⟩ := h.port_backed hpeer' hdata
        have hmin' := hr r''
        -- the walk that the neighbour has heard of
        have hroot : r'' = r := hnet.nid_inj (by omega)
        obtain ⟨hid'', hcost''⟩ := ih v ls' (hroot ▸ hwalk') (by omega)
        exact ⟨hid'', by omega⟩

theorem root_eq (v : V) : (sw v).SpanTreeTbl0.RootID = net.nid r := by
  obtain ⟨ls, hwalk⟩ := hnet.connected v r
  exact (h.claim_le hnet hr ls.length v ls hwalk (Nat.le_refl _)).1

/-- No claim about the root was ever better than the one now. -/
theorem cost_le {Cost : Int} (hbacked : Backed net v (net.nid r) Cost) :
    (sw v).SpanTreeTbl0.Cost ≤ Cost := by
  obtain ⟨r', ls, hwalk, hid, hlen⟩ := hbacked
  rw [hnet.nid_inj hid] at hwalk
  have hcost := (h.claim_le hnet hr ls.length v ls hwalk (Nat.le_refl _)).2
  omega

theorem own_root_iff (v : V) : (sw v).SpanTreeTbl0.RootID = (sw v).nid ↔ v = r := by
  rw [h.root_eq hnet hr v, (h.sound v).nid]
  exact ⟨fun he => (hnet.nid_inj he).symm, fun he => by rw [he]⟩

/-- What a port knows about the other end is the root and its cost, or worse. -/
theorem port_ge (hpeer : net.peer v n = some (w, m)) (hdata : ¬ NoData ((sw v).port n)) :
    net.nid r < ((sw v).port n).RootID ∨
      (((sw v).port n).RootID = net.nid r ∧ (sw w).SpanTreeTbl0.Cost ≤ ((sw v).port n).Cost) := by
  have hbacked := h.port_backed hpeer hdata
  obtain ⟨r', -, -, hid, -⟩ := id hbacked
  rcases (hr r').lt_or_eq with hlt | heq
  · exact .inl (by omega)
  · have hroot : ((sw v).port n).RootID = net.nid r := by omega
    exact .inr ⟨hroot, h.cost_le hnet hr (hroot ▸ hbacked)⟩

/-- Of two neighbours the one that is nearer to the root sends. -/
theorem sends_of_lt (hpeer : net.peer v n = some (w, m))
    (hlt : (sw v).SpanTreeTbl0.Cost < (sw w).SpanTreeTbl0.Cost) : (sw v).Sends n := by
  by_contra hs
  obtain ⟨hdata, hsilent⟩ := h.silent hs
  have hge := h.port_ge hnet hr hpeer hdata
  have hid := h.root_eq hnet hr v
  omega

/-- The root port leads to a neighbour that is nearer to the root. -/
theorem parent (hv : v ≠ r) :
    ∃ w m, net.peer v (sw v).SpanTreeTbl0.RootPort = some (w, m) ∧
      (sw v).SpanTreeTbl0.Cost = (sw w).SpanTreeTbl0.Cost + 1 := by
  have hid := h.root_eq hnet hr v
  rcases (h.sound v).rooted with ⟨-, hown, -⟩ | ⟨-, hdata, hroot, hcost⟩
  · exact absurd ((h.own_root_iff hnet hr v).1 hown) hv
  · obtain ⟨w, m, hpeer, -⟩ := ((h.sound v).heard _).resolve_left hdata
    have hge := h.port_ge hnet hr hpeer hdata
    have hpeer' := hnet.peer_symm _ _ _ _ hpeer
    obtain ⟨-, hcost', -⟩ := h.heard w m v _ hpeer' (h.sends_of_lt hnet hr hpeer' (by omega))
    exact ⟨w, m, hpeer, by rw [hcost, hcost']⟩

/-- If one end sends, an open port at the other end that is no root port has a better claim. -/
theorem better_of_open (hpeer : net.peer v n = some (w, m)) (hs : (sw v).Sends n)
    (hopen : ((sw w).port m).PortState = true) (hport : (sw w).SpanTreeTbl0.RootPort ≠ m) :
    Precedes (sw w).SpanTreeTbl0.RootID (sw w).SpanTreeTbl0.Cost (net.nid w)
      (sw v).SpanTreeTbl0.RootID (sw v).SpanTreeTbl0.Cost (net.nid v) := by
  have hpeer' := hnet.peer_symm v n w m hpeer
  obtain ⟨hid, hcost, hbridge, -⟩ := h.heard v n w m hpeer hs
  rcases h.sends_of_open (hnet.peer_mem w m _ hpeer') hopen hport with hown | hdata | ⟨-, hdes⟩
  · -- the root is better than any other switch
    have hw := (h.own_root_iff hnet hr w).1 hown
    have hne : v ≠ r := hw ▸ hnet.peer_ne w m v n hpeer'
    obtain ⟨u, -, -, hup⟩ := h.parent hnet hr hne
    have hnn := (h.sound u).backed.cost_nonneg
    have hclaim := h.root_claim hnet hr
    subst hw
    exact .inr (.inl ⟨(h.root_eq hnet hr w).trans (h.root_eq hnet hr v).symm, by omega⟩)
  · exact absurd hdata (h.data_of_sends hnet hpeer hs)
  · unfold Designated at hdes
    rwa [hid, hcost, hbridge, (h.sound w).nid] at hdes

/-- A link that is open at both ends has a root port at one of them. -/
theorem rootPort_of_open (hpeer : net.peer v n = some (w, m)) (hv : ((sw v).port n).PortState = true)
    (hw : ((sw w).port m).PortState = true) :
    (v ≠ r ∧ (sw v).SpanTreeTbl0.RootPort = n) ∨ (w ≠ r ∧ (sw w).SpanTreeTbl0.RootPort = m) := by
  have hpeer' := hnet.peer_symm v n w m hpeer
  have hzero : ∀ {x k}, k ∈ net.ports x → (sw x).SpanTreeTbl0.RootPort = k → x ≠ r := by
    rintro x k hk hport rfl
    rw [(h.sound x).least hr] at hport
    exact hnet.ports_pos x (hport ▸ hk)
  have hn := hnet.peer_mem v n _ hpeer
  have hm := hnet.peer_mem w m _ hpeer'
  by_cases hvport : (sw v).SpanTreeTbl0.RootPort = n
  · exact .inl ⟨hzero hn hvport, hvport⟩
  by_cases hwport : (sw w).SpanTreeTbl0.RootPort = m
  · exact .inr ⟨hzero hm hwport, hwport⟩
  -- each end would be better than the other one
  have hwbetter := h.better_of_open hnet hr hpeer (h.sends_of_open hn hv hvport) hw hwport
  have hvbetter := h.better_of_open hnet hr hpeer' (h.sends_of_open hm hw hwport) hv hvport
  unfold Precedes at hwbetter hvbetter
  omega

/-- The links of the root ports, with the switches at their other ends. -/
theorem parents : ∃ up par, LinkGraph.Forest (net.openLink sw) r up par
    (fun v => (sw v).SpanTreeTbl0.Cost.toNat) ∧
      ∀ v, v ≠ r → ∃ m, net.peer v (sw v).SpanTreeTbl0.RootPort = some (par v, m) ∧
        up v = s((v, (sw v).SpanTreeTbl0.RootPort), (par v, m)) ∧
        (sw v).SpanTreeTbl0.Cost = (sw (par v)).SpanTreeTbl0.Cost + 1 := by
  have hparent : ∀ v, ∃ u l, v ≠ r → ∃ m, net.peer v (sw v).SpanTreeTbl0.RootPort = some (u, m) ∧
      l = s((v, (sw v).SpanTreeTbl0.RootPort), (u, m)) ∧
      (sw v).SpanTreeTbl0.Cost = (sw u).SpanTreeTbl0.Cost + 1 := by
    intro v
    by_cases hv : v = r
    · exact ⟨v, s((v, 0), (v, 0)), fun hne => absurd hv hne⟩
    · obtain ⟨u, m, hpeer, hcost⟩ := h.parent hnet hr hv
      exact ⟨u, _, fun _ => ⟨m, hpeer, rfl, hcost⟩⟩
  choose par up hup using hparent
  refine ⟨up, par, ⟨?_, ?_⟩, hup⟩
  · intro x hx
    obtain ⟨-, -, -, hcost⟩ := hup x hx
    have hnn := (h.sound (par x)).backed.cost_nonneg
    omega
  · rintro l x y ⟨n, m, hpeer, rfl, hx, hy⟩
    rcases h.rootPort_of_open hnet hr hpeer hx hy with ⟨hne, hport⟩ | ⟨hne, hport⟩
    · obtain ⟨k, hpeer', hl, -⟩ := hup x hne
      rw [hport, hpeer] at hpeer'
      cases hpeer'
      rw [hport] at hl
      exact .inl ⟨hne, hl.symm, rfl⟩
    · obtain ⟨k, hpeer', hl, -⟩ := hup y hne
      rw [hport, hnet.peer_symm x n y m hpeer] at hpeer'
      cases hpeer'
      rw [hport] at hl
      exact .inr ⟨hne, Sym2.eq_swap.trans hl.symm, rfl⟩

/-- The link of a root port is open at both ends, if no scheduled port stays closed and the comparison
    comes out as with the cost of the port. -/
theorem open_of_rootPort (hq : ∀ v, ∀ n ∈ (sw v).SendSpanTreePacket.opens, ¬ (sw v).MayOpen n)
    (hcompared : ∀ v, ∀ n ∈ (sw v).SendSpanTreePacket.opens, (sw v).CostCompared n)
    (hpeer : net.peer v n = some (w, m)) (hport : (sw v).SpanTreeTbl0.RootPort = n)
    (hcost : (sw v).SpanTreeTbl0.Cost = (sw w).SpanTreeTbl0.Cost + 1) :
    ((sw v).port n).PortState = true ∧ ((sw w).port m).PortState = true := by
  have hpeer' := hnet.peer_symm v n w m hpeer
  have hopens : ∀ {x k}, k ∈ net.ports x → (sw x).Asks k → k ∈ (sw x).SendSpanTreePacket.opens := by
    intro x k hk hasks
    obtain ⟨info, -, hsent⟩ := send_sent ((h.sound x).nodup hnet)
    exact (hsent.opens k).2 (.inr ⟨(h.sound x).list ▸ hk, hasks⟩)
  constructor
  · by_contra hstate
    have hasks : (sw v).Asks n := ⟨by simpa using hstate, .inr hport⟩
    exact hq v n (hopens (hnet.peer_mem v n _ hpeer) hasks) (.inl hport)
  · by_contra hstate
    have hsends := h.sends_of_lt hnet hr hpeer' (by omega)
    have hmem := hopens (hnet.peer_mem w m _ hpeer') ⟨by simpa using hstate, .inl hsends⟩
    refine hq w m hmem ((hcompared w m hmem).2 ?_)
    by_cases hdata : NoData ((sw w).port m)
    · exact .inr (.inr (.inl hdata))
    · have hge := h.port_ge hnet hr hpeer' hdata
      have hid := h.root_eq hnet hr w
      unfold Precedes
      omega

end Still

/-- Some switch has the least id. -/
theorem exists_least (hnet : net.WellFormed) (v : V) : ∃ r, ∀ v, net.nid r ≤ net.nid v := by
  have hwf : WellFounded fun v w : V => (net.nid v).toNat < (net.nid w).toNat :=
    (measure fun v => (net.nid v).toNat).wf
  obtain ⟨r, -, hmin⟩ := hwf.has_min Set.univ ⟨v, trivial⟩
  refine ⟨r, fun v => ?_⟩
  have hv := hmin v trivial
  have hpos := hnet.nid_pos r
  omega

/-- **Spanning tree.** In every state that a network can reach and that a round of hello packets does
    not change, the links with two open ports contain no cycle. If opening the scheduled ports does not
    change it either they connect all switches, unless the comparison with the root of a port, in place
    of its cost, keeps a scheduled port closed. -/
theorem settled_spanning_tree [DecidableEq V] (hnet : net.WellFormed) {acts : List (Action V)}
    {x : State V} (hrun : Run.exec net.step net.init acts = .ok x) :
    ((∀ v, Quiet (x.sw v) (net.helloRound x.sw v)) → LinkGraph.Acyclic (net.openLink x.sw)) ∧
      ((∀ v, Quiet (x.sw v) (net.fullRound x.sw v)) →
        (∀ v, ∀ n ∈ (x.sw v).SendSpanTreePacket.opens, (x.sw v).CostCompared n) →
          LinkGraph.Connected (net.openLink x.sw)) := by
  have hstep : ∀ x a x', Consistent net x → net.step x a = .ok x' → Consistent net x' :=
    fun _ a _ h hs => h.step hnet a hs
  have hsound := ((Run.Always.of_step hstep init_consistent acts).exec hrun).sound
  constructor
  · intro hq v
    obtain ⟨r, hr⟩ := exists_least hnet v
    obtain ⟨up, par, hforest, -⟩ := (still_of_quiet hnet hsound hq).parents hnet hr
    exact hforest.acyclic v
  · intro hq hcompared v
    have hstill := still_of_quiet hnet hsound fun v => (hq v).left
    obtain ⟨r, hr⟩ := exists_least hnet v
    obtain ⟨up, par, hforest, hup⟩ := hstill.parents hnet hr
    refine hforest.connected ?_ ?_ v
    · rintro l x y ⟨n, m, hpeer, rfl, hopen⟩
      exact ⟨m, n, hnet.peer_symm x n y m hpeer, Sym2.eq_swap, hopen.symm⟩
    · intro v hv
      obtain ⟨m, hpeer, hl, hcost⟩ := hup v hv
      exact ⟨_, m, hpeer, hl, hstill.open_of_rootPort hnet hr
        (fun v n hn => not_mayOpen_of_quiet hnet hsound (hq v) hn) hcompared hpeer rfl hcost⟩

/-- Two switches with two links. -/
def twoSwitches : Net Bool where
  nid := fun v => if v then 2 else 1
  MaxAge := fun _ => 2
  ports := fun _ => [1, 2]
  peer := fun v n => if n = 1 ∨ n = 2 then some (!v, n) else none

theorem twoSwitches_peer {v : Bool} {x : Bool × UInt8} (h : twoSwitches.peer v n = some x) :
    (n = 1 ∨ n = 2) ∧ x = (!v, n) := by
  unfold twoSwitches at h
  dsimp only at h
  split at h
  · exact ⟨‹_›, (Option.some.inj h).symm⟩
  · cases h

theorem twoSwitches_wellFormed : twoSwitches.WellFormed where
  nid_pos := by decide
  nid_inj := by decide
  ports_nodup := by decide
  ports_pos := by decide
  peer_mem := by
    rintro v n x h
    obtain ⟨hn, -⟩ := twoSwitches_peer h
    show n ∈ [1, 2]
    simpa using hn
  peer_symm := by
    rintro v n w m h
    obtain ⟨hn, he⟩ := twoSwitches_peer h
    cases he
    show (if n = 1 ∨ n = 2 then some (!!v, n) else none) = _
    rw [if_pos hn, Bool.not_not]
  peer_ne := by
    rintro v n w m h
    obtain ⟨-, he⟩ := twoSwitches_peer h
    cases he
    exact Bool.not_ne_self v
  connected := by
    intro x y
    by_cases hxy : x = y
    · exact ⟨[], hxy ▸ .nil x⟩
    · have hy : y = !x := by
        cases x <;> cases y <;> simp_all
      exact ⟨[s((x, 1), (y, 1))], .cons ⟨1, 1, by rw [hy]; rfl, rfl⟩ (.nil y)⟩

/-- A round of hello packets that all arrive. -/
def helloActions : List (Action Bool) := [.hello false, .hello true] ++ List.replicate 4 (.deliver 0)

/-- Two switches with two links between them. -/
theorem settled_spanning_tree_two :
    ∃ x, Run.exec twoSwitches.step twoSwitches.init (helloActions ++ List.replicate 4 (.openPort 0)) =
        .ok x ∧
      LinkGraph.Acyclic (twoSwitches.openLink x.sw) ∧
      LinkGraph.Connected (twoSwitches.openLink x.sw) := by
  refine ⟨_, rfl, ?_⟩
  have hrun : Run.exec twoSwitches.step twoSwitches.init (helloActions ++ List.replicate 4 (.openPort 0)) =
      .ok _ := rfl
  obtain ⟨hacyclic, hconnected⟩ := settled_spanning_tree twoSwitches_wellFormed hrun
  exact ⟨hacyclic (by decide +kernel), hconnected (by decide +kernel) (by decide +kernel)⟩

/-- The ports are closed until the forward delay is over, although another round of hello packets
    changes nothing. -/
theorem closed_until_forward_delay :
    ∃ x, Run.exec twoSwitches.step twoSwitches.init helloActions = .ok x ∧
      (∀ v, Quiet (x.sw v) (twoSwitches.helloRound x.sw v)) ∧
      ¬ LinkGraph.Connected (twoSwitches.openLink x.sw) := by
  refine ⟨_, rfl, by decide +kernel, fun h => ?_⟩
  obtain ⟨ls, hw⟩ := h false true
  cases hw with
  | cons hl _ =>
    obtain ⟨n, m, hpeer, -, hopen, -⟩ := hl
    rcases (twoSwitches_peer hpeer).1 with rfl | rfl
    · exact absurd hopen (by decide +kernel)
    · exact absurd hopen (by decide +kernel)

end SpanTree
