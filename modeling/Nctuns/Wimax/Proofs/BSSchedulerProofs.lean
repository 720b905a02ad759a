import Mathlib.Algebra.Order.BigOperators.Group.List
import Mathlib.Algebra.Order.Ring.Nat
import Mathlib.Data.List.GetD
import Nctuns.Wimax.BSScheduler
import Nctuns.Wimax.Proofs.BandwidthReportProofs

/-!
# The downlink of a frame

One PDU of each connection is granted in turn until one does not fit. From then on all symbols are given
away, and no burst gets longer than its symbols.
-/

namespace Wimax

/-! ## Bytes and symbols -/

variable {fec : Fin 7}

/-- Every code carries bytes. -/
theorem blockSize_pos (fec : Fin 7) : (12 : Int) ≤ uncodedBlockSize fec := by
  revert fec
  decide

/-- A number of bytes takes as many symbols as its bytes and one more need. -/
theorem bytesToSymbols_eq {bytes : Int} (hpos : 0 < bytes) (fec : Fin 7) :
    bytesToSymbols bytes fec = (bytes + uncodedBlockSize fec) / uncodedBlockSize fec := by
  have hsize := blockSize_pos fec
  have hdiv := Int.mul_ediv_add_emod (bytes + 1) (uncodedBlockSize fec)
  have hmod := Int.emod_lt_of_pos (bytes + 1) (show (0 : Int) < uncodedBlockSize fec by omega)
  have hnonneg := Int.emod_nonneg (bytes + 1) (show (uncodedBlockSize fec : Int) ≠ 0 by omega)
  unfold bytesToSymbols
  rw [if_neg (by omega), Int.tdiv_eq_ediv_of_nonneg (by omega)]
  dsimp only
  generalize hq : (bytes + 1) / (uncodedBlockSize fec : Int) = q at *
  generalize hr : (bytes + 1) % (uncodedBlockSize fec : Int) = r at *
  generalize hn : (uncodedBlockSize fec : Int) = n at *
  have hcomm : q * n = n * q := Int.mul_comm _ _
  symm
  split
  · have hsplit : bytes + n = (r - 1) + n * (q + 1) := by
      rw [Int.mul_add]
      omega
    rw [hsplit, Int.add_mul_ediv_left _ _ (by omega), Int.ediv_eq_zero_of_lt (by omega) (by omega), Int.zero_add]
  · have hsplit : bytes + n = (n - 1) + n * q := by omega
    rw [hsplit, Int.add_mul_ediv_left _ _ (by omega), Int.ediv_eq_zero_of_lt (by omega) (by omega), Int.zero_add]

/-- Rounded up, the symbols have room for the bytes. -/
theorem bytesToSymbols_le {bytes x : Int} (hpos : 0 < bytes) (fec : Fin 7) :
    bytesToSymbols bytes fec ≤ x ↔ bytes ≤ symbolsToBytes x fec := by
  have hsize := blockSize_pos fec
  rw [bytesToSymbols_eq hpos, Int.ediv_le_iff_le_mul (by omega)]
  unfold symbolsToBytes
  omega

@[simp] theorem bytesToSymbols_zero (fec : Fin 7) : bytesToSymbols 0 fec = 0 := rfl

/-- What is cut to nothing needs no symbol. -/
theorem bytesToSymbols_neg_one (fec : Fin 7) : bytesToSymbols (-1) fec = 0 := by
  have hsize := blockSize_pos fec
  unfold bytesToSymbols
  rw [if_neg (by decide), show (-1 : Int) + 1 = 0 from rfl, Int.zero_tdiv]
  dsimp only
  rw [Int.zero_mul]
  rfl

/-- Symbols hold a burst of that many symbols. -/
theorem toSymbol_toByte {x : Int} (hx : 0 ≤ x) (fec : Fin 7) :
    bytesToSymbols (symbolsToBytes x fec) fec = x := by
  have hsize := blockSize_pos fec
  rcases hx.eq_or_lt with rfl | hpos
  · show bytesToSymbols (0 * _ - 1) fec = 0
    rw [Int.zero_mul]
    exact bytesToSymbols_neg_one fec
  · have hmul := Int.mul_le_mul_of_nonneg_right hpos (show (0 : Int) ≤ uncodedBlockSize fec by omega)
    rw [Int.zero_add, Int.one_mul] at hmul
    have hbytes : 0 < symbolsToBytes x fec := by
      unfold symbolsToBytes
      omega
    rw [bytesToSymbols_eq hbytes]
    unfold symbolsToBytes
    have hsplit : x * (uncodedBlockSize fec : Int) - 1 + uncodedBlockSize fec =
        (uncodedBlockSize fec - 1) + x * uncodedBlockSize fec := by omega
    rw [hsplit, Int.add_mul_ediv_right _ _ (by omega), Int.ediv_eq_zero_of_lt (by omega) (by omega), Int.zero_add]

/-! ## One burst -/

namespace AllocInfo

/-- A PDU is waiting. -/
def Waits (a : AllocInfo) : Prop := a.position < a.pduInfo.length

instance (a : AllocInfo) : Decidable a.Waits := inferInstanceAs (Decidable (_ < _))

/-- The bytes that the next PDU takes. -/
def due (a : AllocInfo) : Nat := if a.Waits then a.getNext else 0

/-- The next PDU is granted. -/
def grant (a : AllocInfo) : AllocInfo :=
  if a.Waits then { a with len := a.len + a.getNext, position := a.position + 1 } else a

end AllocInfo

namespace downBurst

variable {available others : Int} {b : downBurst} {as : List AllocInfo}

/-- One PDU of each connection is granted. -/
structure Granted (available others : Int) (b : downBurst) (as : List AllocInfo) (isDone : Bool)
    (r : downBurst × Bool × List AllocInfo) : Prop where
  burst : ∃ cid, r.1 = { b with cid := cid, length := b.length + (as.map AllocInfo.due).sum }
  isDone : r.2.1 = (isDone && as.all fun a => ¬ a.Waits)
  infos : r.2.2 = as.map AllocInfo.grant
  fits : others + bytesToSymbols (b.length + (as.map AllocInfo.due).sum) b.fec ≤ available

/-- The PDU of `a` does not fit: `a` gets the room that is left. -/
structure Cut (available others : Int) (b : downBurst) (pre : List AllocInfo) (a : AllocInfo)
    (post : List AllocInfo) (r : downBurst × Bool × List AllocInfo) : Prop where
  burst : ∃ cid, r.1 = { b with cid := cid, length := symbolsToBytes (available - others) b.fec }
  isDone : r.2.1 = true
  infos : r.2.2 = pre.map AllocInfo.grant ++ { a with
    len := a.len + (symbolsToBytes (available - others) b.fec - (b.length + (pre.map AllocInfo.due).sum)) } :: post
  waits : a.Waits
  fits : others + bytesToSymbols (b.length + (pre.map AllocInfo.due).sum) b.fec ≤ available
  full : available < others + bytesToSymbols (b.length + (pre.map AllocInfo.due).sum + a.getNext) b.fec

/-- The connection `a` in front of others of which one PDU each is granted. -/
theorem Granted.cons {cid : UInt16} {isDone isDone' : Bool} {r : downBurst × Bool × List AllocInfo} {a : AllocInfo}
    (h : Granted available others { b with cid := cid, length := b.length + a.due } as isDone' r)
    (hdone : isDone' = (isDone && decide (¬ a.Waits))) :
    Granted available others b (a :: as) isDone (r.1, r.2.1, a.grant :: r.2.2) := by
  obtain ⟨cid', hburst⟩ := h.burst
  have hsum : b.length + a.due + ((as.map AllocInfo.due).sum : Nat) =
      b.length + (((a :: as).map AllocInfo.due).sum : Nat) := by
    rw [List.map_cons, List.sum_cons]
    omega
  refine ⟨⟨cid', ?_⟩, ?_, ?_, ?_⟩
  · rw [hburst, ← hsum]
  · rw [h.isDone, hdone, List.all_cons, Bool.and_assoc]
  · rw [h.infos, List.map_cons]
  · rw [← hsum]
    exact h.fits

/-- An entry in front of the place of the cut. -/
theorem Cut.cons {cid : UInt16} {r : downBurst × Bool × List AllocInfo} {pre post : List AllocInfo}
    {a c : AllocInfo}
    (h : Cut available others { b with cid := cid, length := b.length + a.due } pre c post r) :
    Cut available others b (a :: pre) c post (r.1, r.2.1, a.grant :: r.2.2) := by
  obtain ⟨cid', hburst⟩ := h.burst
  have hsum : b.length + a.due + ((pre.map AllocInfo.due).sum : Nat) =
      b.length + (((a :: pre).map AllocInfo.due).sum : Nat) := by
    rw [List.map_cons, List.sum_cons]
    omega
  refine ⟨⟨cid', ?_⟩, h.isDone, ?_, h.waits, ?_, ?_⟩
  · rw [hburst]
  · rw [h.infos, List.map_cons, List.cons_append, hsum]
  · rw [← hsum]
    exact h.fits
  · rw [← hsum]
    exact h.full

/-- A turn over the entries: all are granted, or it is cut at one of them. -/
theorem select_cases (h : others + bytesToSymbols b.length b.fec ≤ available) (isDone : Bool) (as : List AllocInfo) :
    Granted available others b as isDone (b.select available others isDone as) ∨
      ∃ pre a post, as = pre ++ a :: post ∧
        Cut available others b pre a post (b.select available others isDone as) := by
  induction as generalizing b isDone with
  | nil =>
    refine Or.inl ⟨⟨b.cid, ?_⟩, ?_, rfl, ?_⟩
    · simp [select]
    · simp [select]
    · simpa using h
  | cons a as ih =>
    unfold select
    by_cases hwaits : a.Waits
    · have hdue : a.due = a.getNext := if_pos hwaits
      have hgrant : a.grant = { a with len := a.len + a.getNext, position := a.position + 1 } := if_pos hwaits
      rw [if_neg (Nat.not_le.2 hwaits)]
      generalize hb' : (if b.cid ≠ broadcastCID ∧ b.cid ≠ a.conn.getCID then
        { b with cid := a.conn.getCID } else b) = b'
      have hsame : ∃ cid, b' = { b with cid := cid } := by
        rw [← hb']
        split
        · exact ⟨_, rfl⟩
        · exact ⟨_, rfl⟩
      obtain ⟨cid, rfl⟩ := hsame
      dsimp only [toSymbol, toByte]
      by_cases hfull : others + bytesToSymbols (b.length + a.getNext) b.fec > available
      · rw [if_pos hfull]
        refine Or.inr ⟨[], a, as, rfl, ⟨cid, rfl⟩, rfl, ?_, hwaits, ?_, ?_⟩
        · simp
        · simpa using h
        · simpa using hfull
      · rw [if_neg hfull, ← hgrant, ← hdue]
        have hnext : others + bytesToSymbols (b.length + a.due) b.fec ≤ available := by
          rw [hdue]
          exact Int.not_lt.1 hfull
        rcases ih (b := { b with cid := cid, length := b.length + a.due }) hnext false with hrest | hrest
        · exact Or.inl (hrest.cons (by simp [hwaits]))
        · obtain ⟨pre, c, post, rfl, hcut⟩ := hrest
          exact Or.inr ⟨a :: pre, c, post, rfl, hcut.cons⟩
    · have hdue : a.due = 0 := if_neg hwaits
      have hgrant : a.grant = a := if_neg hwaits
      rw [if_pos (Nat.not_lt.1 hwaits)]
      have hself : { b with cid := b.cid, length := b.length + a.due } = b := by
        simp [hdue]
      rcases ih h isDone with hrest | hrest
      · rw [← hself] at hrest
        have hcons := hrest.cons (show isDone = (isDone && decide (¬ a.Waits)) by simp [hwaits])
        rw [hgrant, hself] at hcons
        exact Or.inl hcons
      · obtain ⟨pre, c, post, rfl, hcut⟩ := hrest
        rw [← hself] at hcut
        have hcons := hcut.cons
        rw [hgrant, hself] at hcons
        exact Or.inr ⟨a :: pre, c, post, rfl, hcons⟩

end downBurst

/-! ## What a burst has granted -/

namespace AllocInfo

variable {a : AllocInfo}

/-- The length with which the connection begins. -/
def base (a : AllocInfo) : Int :=
  match a.conn with
  | .management c => c.GetInformation.1
  | _ => 0

/-- The bytes of the PDUs that are granted. -/
def granted (a : AllocInfo) : Nat := (a.pduInfo.take a.position).sum

/-- The connection has been granted these PDUs and nothing else. -/
def Even (a : AllocInfo) : Prop := a.len = a.base + a.granted

/-- A PDU has more than a byte, and no more are granted than there are. -/
structure Sound (a : AllocInfo) : Prop where
  pos : ∀ n ∈ a.pduInfo, 1 < n
  le : a.position ≤ a.pduInfo.length

/-- A PDU that waits has a length. -/
theorem Sound.getNext_pos (h : a.Sound) (hwaits : a.Waits) : 1 < a.getNext := by
  unfold getNext
  rw [List.getD_eq_getElem _ _ hwaits]
  exact h.pos _ (List.getElem_mem hwaits)

/-- Nothing is due where nothing waits. -/
theorem Sound.due_eq_zero (h : a.Sound) : a.due = 0 ↔ ¬ a.Waits := by
  refine ⟨fun hdue hwaits => ?_, fun hnot => if_neg hnot⟩
  have hpos := h.getNext_pos hwaits
  rw [due, if_pos hwaits] at hdue
  omega

/-- One PDU more. -/
theorem granted_succ (hwaits : a.Waits) :
    (a.pduInfo.take (a.position + 1)).sum = a.granted + a.getNext := by
  rw [List.take_add_one, List.sum_append, List.getElem?_eq_getElem hwaits, getNext, List.getD_eq_getElem _ _ hwaits]
  rfl

/-- A grant adds what is due. -/
theorem granted_grant (a : AllocInfo) : a.grant.granted = a.granted + a.due := by
  unfold grant due
  by_cases hwaits : a.Waits
  · rw [if_pos hwaits, if_pos hwaits]
    exact granted_succ hwaits
  · rw [if_neg hwaits, if_neg hwaits, Nat.add_zero]

theorem grant_of_not_waits (h : ¬ a.Waits) : a.grant = a := if_neg h

theorem grant_keeps (a : AllocInfo) : a.grant.conn = a.conn ∧ a.grant.pduInfo = a.pduInfo := by
  unfold grant
  split <;> exact ⟨rfl, rfl⟩

/-- The length of the last PDU is not part of the base. -/
theorem base_grant (a : AllocInfo) : a.grant.base = a.base := by
  unfold base
  rw [(grant_keeps a).1]

theorem Even.grant (h : a.Even) : a.grant.Even := by
  unfold Even
  rw [base_grant, granted_grant]
  unfold AllocInfo.grant due
  by_cases hwaits : a.Waits
  · rw [if_pos hwaits, if_pos hwaits]
    show a.len + a.getNext = _
    rw [h]
    omega
  · rw [if_neg hwaits, if_neg hwaits, Nat.add_zero]
    exact h

theorem Sound.grant (h : a.Sound) : a.grant.Sound := by
  refine ⟨?_, ?_⟩
  · rw [(grant_keeps a).2]
    exact h.pos
  · unfold AllocInfo.grant
    by_cases hwaits : a.Waits
    · rw [if_pos hwaits]
      exact hwaits
    · rw [if_neg hwaits]
      exact h.le

/-- The PDUs that are not granted. -/
def left (a : AllocInfo) : Nat := a.pduInfo.length - a.position

/-- A grant leaves fewer PDUs. -/
theorem left_grant (a : AllocInfo) : a.grant.left ≤ a.left ∧ (a.Waits → a.grant.left < a.left) := by
  unfold left grant
  by_cases hwaits : a.Waits
  · have hlt : a.position < a.pduInfo.length := hwaits
    rw [if_pos hwaits]
    show a.pduInfo.length - (a.position + 1) ≤ _ ∧ (_ → a.pduInfo.length - (a.position + 1) < _)
    omega
  · rw [if_neg hwaits]
    exact ⟨Nat.le_refl _, fun h => absurd h hwaits⟩

end AllocInfo

namespace downBurst

variable {available allocSymbols others : Int} {b : downBurst}

/-- What has been granted in a burst. -/
def granted (as : List AllocInfo) : Nat := (as.map AllocInfo.granted).sum

/-- Only whole PDUs have been granted. -/
structure Open (b : downBurst) : Prop where
  even : ∀ a ∈ b.ConnectionCollection, a.Even
  length : b.length = granted b.ConnectionCollection

/-- The burst is filled with `rest` bytes that the next PDU of `a` would have needed. If it has no symbol,
    it has lost a byte. -/
structure Filled (b : downBurst) (pre : List AllocInfo) (a : AllocInfo) (post : List AllocInfo) (rest : Int) :
    Prop where
  split : b.ConnectionCollection = pre ++ a :: post
  even : ∀ c ∈ pre ++ post, c.Even
  len : a.len = a.base + a.granted + rest
  waits : a.Waits
  lt : rest < a.getNext
  length : b.length = granted b.ConnectionCollection + rest
  full : b.length = symbolsToBytes b.duration b.fec
  nonneg : 0 ≤ rest ∨ rest = -1 ∧ b.length = -1

/-- A PDU did not fit into the burst. -/
def Full (b : downBurst) : Prop := ∃ pre a post rest, b.Filled pre a post rest

/-- Where a burst is between the rounds. From the first cut on all symbols are given away. -/
structure Kept (available allocSymbols : Int) (b : downBurst) : Prop where
  sound : ∀ a ∈ b.ConnectionCollection, a.Sound
  duration : b.duration = bytesToSymbols b.length b.fec
  state : b.Open ∨ allocSymbols = available ∧ b.Full

/-- Symbols are not negative. -/
theorem bytesToSymbols_nonneg {bytes : Int} (h : -1 ≤ bytes) (fec : Fin 7) : 0 ≤ bytesToSymbols bytes fec := by
  have hsize := blockSize_pos fec
  rcases h.eq_or_lt with rfl | hlt
  · rw [bytesToSymbols_neg_one]
  · rcases (show 0 ≤ bytes by omega).eq_or_lt with rfl | hpos
    · rw [bytesToSymbols_zero]
    · rw [bytesToSymbols_eq hpos]
      exact Int.ediv_nonneg (by omega) (by omega)

/-- The length of a burst. -/
theorem Kept.length (h : Kept available allocSymbols b) : -1 ≤ b.length := by
  rcases h.state with hopen | ⟨-, pre, a, post, rest, hfilled⟩
  · rw [hopen.length]
    omega
  · rw [hfilled.length]
    rcases hfilled.nonneg with hrest | ⟨rfl, -⟩ <;> omega

/-- A burst after its turn. -/
def after (r : downBurst × Bool × List AllocInfo) : downBurst :=
  { r.1 with duration := r.1.toSymbol r.1.length, ConnectionCollection := r.2.2 }

/-- What the turn of a burst does to the frame. -/
structure Turn (available allocSymbols : Int) (isDone : Bool) (b b' : downBurst) (isDone' : Bool) : Prop where
  le : allocSymbols - b.duration + b'.duration ≤ available
  kept : Kept available (allocSymbols - b.duration + b'.duration) b'
  full : allocSymbols = available → allocSymbols - b.duration + b'.duration = available
  diuc : b'.diuc = b.diuc
  fec : b'.fec = b.fec
  conns : (b'.ConnectionCollection.map fun a => (a.conn, a.pduInfo)) =
    b.ConnectionCollection.map fun a => (a.conn, a.pduInfo)
  left : (b'.ConnectionCollection.map AllocInfo.left).sum ≤ (b.ConnectionCollection.map AllocInfo.left).sum
  more : isDone' = false → isDone = false ∨
    (b'.ConnectionCollection.map AllocInfo.left).sum < (b.ConnectionCollection.map AllocInfo.left).sum
  done : isDone' = true → isDone = true ∧ (∀ a ∈ b'.ConnectionCollection, ¬ a.Waits) ∨
    b'.Full ∧ allocSymbols - b.duration + b'.duration = available

/-- More bytes need at least as many symbols. -/
theorem bytesToSymbols_mono {m n : Int} (hm : -1 ≤ m) (hmn : m ≤ n) (fec : Fin 7) :
    bytesToSymbols m fec ≤ bytesToSymbols n fec := by
  by_cases hpos : 0 < m
  · exact (bytesToSymbols_le hpos fec).2 (hmn.trans ((bytesToSymbols_le (by omega) fec).1 (Int.le_refl _)))
  · have hzero : bytesToSymbols m fec = 0 := by
      rcases hm.eq_or_lt with rfl | hlt
      · exact bytesToSymbols_neg_one fec
      · obtain rfl : m = 0 := by omega
        rfl
    rw [hzero]
    exact bytesToSymbols_nonneg (by omega) fec

theorem granted_append (as as' : List AllocInfo) : granted (as ++ as') = granted as + granted as' := by
  unfold granted
  rw [List.map_append, List.sum_append]

theorem granted_cons (a : AllocInfo) (as : List AllocInfo) : granted (a :: as) = a.granted + granted as := rfl

theorem granted_grant (as : List AllocInfo) :
    granted (as.map AllocInfo.grant) = granted as + (as.map AllocInfo.due).sum := by
  induction as with
  | nil => rfl
  | cons a as ih =>
    rw [List.map_cons, granted_cons, granted_cons, ih, AllocInfo.granted_grant, List.map_cons, List.sum_cons]
    omega

theorem left_grant (as : List AllocInfo) :
    ((as.map AllocInfo.grant).map AllocInfo.left).sum ≤ (as.map AllocInfo.left).sum ∧
      ((∃ a ∈ as, a.Waits) → ((as.map AllocInfo.grant).map AllocInfo.left).sum < (as.map AllocInfo.left).sum) := by
  induction as with
  | nil => exact ⟨Nat.le_refl _, fun ⟨a, ha, _⟩ => absurd ha List.not_mem_nil⟩
  | cons a as ih =>
    have ha := a.left_grant
    simp only [List.map_cons, List.sum_cons]
    refine ⟨Nat.add_le_add ha.1 ih.1, ?_⟩
    rintro ⟨c, hc, hwaits⟩
    rcases List.mem_cons.1 hc with rfl | hc
    · exact Nat.add_lt_add_of_lt_of_le (ha.2 hwaits) ih.1
    · exact Nat.add_lt_add_of_le_of_lt ha.1 (ih.2 ⟨c, hc, hwaits⟩)

/-- Nothing more fits into a burst that is filled. -/
theorem Filled.due_eq_zero {pre post pre' post' : List AllocInfo} {a : AllocInfo} {rest : Int}
    (h : b.Filled pre a post rest) (hk : Kept available available b)
    (hsplit : b.ConnectionCollection = pre' ++ post')
    (hfits : available - b.duration + bytesToSymbols (b.length + (pre'.map AllocInfo.due).sum) b.fec ≤ available) :
    (pre'.map AllocInfo.due).sum = 0 := by
  rcases Nat.eq_zero_or_pos (pre'.map AllocInfo.due).sum with hzero | hpos
  · exact hzero
  · obtain ⟨n, hn, hdue⟩ := List.sum_pos_iff_exists_pos_nat.1 hpos
    obtain ⟨c, hc, rfl⟩ := List.mem_map.1 hn
    have hsound : c.Sound := hk.sound c (by rw [hsplit]; exact List.mem_append_left _ hc)
    have hwaits : c.Waits := by
      by_contra hnot
      rw [AllocInfo.due, if_neg hnot] at hdue
      exact Nat.lt_irrefl _ hdue
    have hnext : 1 < c.due := by
      rw [AllocInfo.due, if_pos hwaits]
      exact hsound.getNext_pos hwaits
    have hmem : c.due ≤ (pre'.map AllocInfo.due).sum := List.single_le_sum (fun _ _ => Nat.zero_le _) _ hn
    have hlen := hk.length
    have hsmall := (bytesToSymbols_le (x := b.duration) (show 0 < b.length + (pre'.map AllocInfo.due).sum by omega)
      b.fec).1 (by omega)
    rw [← h.full] at hsmall
    omega

variable {isDone : Bool} {r : downBurst × Bool × List AllocInfo}

/-- A grant leaves the connections and their PDUs. -/
theorem keys_grant (as : List AllocInfo) :
    ((as.map AllocInfo.grant).map fun a => (a.conn, a.pduInfo)) = as.map fun a => (a.conn, a.pduInfo) := by
  rw [List.map_map]
  refine List.map_congr_left fun a _ => ?_
  simp only [Function.comp_apply, (AllocInfo.grant_keeps a).1, (AllocInfo.grant_keeps a).2]

/-- The turn of a burst in which each PDU fits. -/
theorem Kept.granted (hk : Kept available allocSymbols b)
    (hr : Granted available (allocSymbols - b.duration) b b.ConnectionCollection isDone r) :
    Turn available allocSymbols isDone b (after r) r.2.1 := by
  obtain ⟨cid, hburst⟩ := hr.burst
  have hlength : r.1.length = b.length + (b.ConnectionCollection.map AllocInfo.due).sum := by rw [hburst]
  have hfec : r.1.fec = b.fec := by rw [hburst]
  have hdiuc : r.1.diuc = b.diuc := by rw [hburst]
  have hduration : (after r).duration = bytesToSymbols (b.length + (b.ConnectionCollection.map AllocInfo.due).sum) b.fec := by
    show bytesToSymbols r.1.length r.1.fec = _
    rw [hlength, hfec]
  have hinfos : (after r).ConnectionCollection = b.ConnectionCollection.map AllocInfo.grant := hr.infos
  have hmore : b.duration ≤ (after r).duration := by
    rw [hduration, hk.duration]
    exact bytesToSymbols_mono hk.length (by omega) _
  have hfits := hr.fits
  rw [← hduration] at hfits
  have hopen : b.Open := by
    rcases hk.state with hopen | ⟨rfl, pre, a, post, rest, hfilled⟩
    · exact hopen
    · have hdue := hfilled.due_eq_zero hk (List.append_nil _).symm hr.fits
      have ha : a ∈ b.ConnectionCollection := by
        rw [hfilled.split]
        exact List.mem_append_right _ List.mem_cons_self
      have hsingle := List.single_le_sum (fun _ _ => Nat.zero_le _) _ (List.mem_map_of_mem (f := AllocInfo.due) ha)
      rw [hdue] at hsingle
      have hzero : a.due = 0 := Nat.le_zero.1 hsingle
      rw [AllocInfo.due, if_pos hfilled.waits] at hzero
      have hpos := (hk.sound a ha).getNext_pos hfilled.waits
      omega
  refine ⟨hfits, ⟨?_, ?_, Or.inl ⟨?_, ?_⟩⟩, ?_, hdiuc, hfec, ?_, ?_, ?_, ?_⟩
  · intro a ha
    rw [hinfos] at ha
    obtain ⟨c, hc, rfl⟩ := List.mem_map.1 ha
    exact (hk.sound c hc).grant
  · rfl
  · intro a ha
    rw [hinfos] at ha
    obtain ⟨c, hc, rfl⟩ := List.mem_map.1 ha
    exact (hopen.even c hc).grant
  · rw [hinfos, granted_grant]
    show r.1.length = _
    rw [hlength, hopen.length]
    omega
  · intro hfull
    omega
  · rw [hinfos]
    exact keys_grant _
  · rw [hinfos]
    exact (left_grant _).1
  · intro hdone
    rw [hr.isDone, Bool.and_eq_false_iff] at hdone
    refine hdone.imp id fun hall => ?_
    rw [hinfos]
    refine (left_grant _).2 ?_
    by_contra hnone
    rw [List.all_eq_false] at hall
    obtain ⟨a, ha, hwaits⟩ := hall
    exact hnone ⟨a, ha, by simpa using hwaits⟩
  · intro hdone
    rw [hr.isDone, Bool.and_eq_true, List.all_eq_true] at hdone
    refine Or.inl ⟨hdone.1, fun a ha => ?_⟩
    rw [hinfos] at ha
    obtain ⟨c, hc, rfl⟩ := List.mem_map.1 ha
    have hnot : ¬ c.Waits := by simpa using hdone.2 c hc
    rwa [AllocInfo.grant_of_not_waits hnot]

/-- Nothing is granted where nothing is due. -/
theorem map_grant_of_due {as : List AllocInfo} (hsound : ∀ a ∈ as, a.Sound) (hdue : (as.map AllocInfo.due).sum = 0) :
    as.map AllocInfo.grant = as := by
  refine (List.map_congr_left fun a ha => ?_).trans (List.map_id _)
  have hsingle := List.single_le_sum (fun _ _ => Nat.zero_le _) _ (List.mem_map_of_mem (f := AllocInfo.due) ha)
  rw [hdue] at hsingle
  exact AllocInfo.grant_of_not_waits ((hsound a ha).due_eq_zero.1 (Nat.le_zero.1 hsingle))

/-- What is kept when a PDU does not fit. -/
structure Recut (available : Int) (b b' : downBurst) : Prop where
  kept : Kept available available b'
  full : b'.Full
  conns : (b'.ConnectionCollection.map fun a => (a.conn, a.pduInfo)) =
    b.ConnectionCollection.map fun a => (a.conn, a.pduInfo)
  left : (b'.ConnectionCollection.map AllocInfo.left).sum ≤ (b.ConnectionCollection.map AllocInfo.left).sum

theorem Filled.recut {pre post pre' post' : List AllocInfo} {a a' : AllocInfo} {rest : Int} {b' : downBurst}
    (h : b.Filled pre' a' post' rest) (hk : Kept available available b)
    (hsplit : b.ConnectionCollection = pre ++ a :: post)
    (hfits : available - b.duration + bytesToSymbols (b.length + (pre.map AllocInfo.due).sum) b.fec ≤ available)
    (hlength : b'.length = symbolsToBytes b.duration b.fec) (hfec : b'.fec = b.fec)
    (hduration : b'.duration = b.duration)
    (hinfos : b'.ConnectionCollection = pre.map AllocInfo.grant ++
      { a with len := a.len + (symbolsToBytes b.duration b.fec - (b.length + (pre.map AllocInfo.due).sum)) } :: post) :
    Recut available b b' := by
  have hdue := h.due_eq_zero hk hsplit hfits
  have hsame : b'.ConnectionCollection = b.ConnectionCollection := by
    have hsound : ∀ c ∈ pre, c.Sound := fun c hc => hk.sound c (by rw [hsplit]; exact List.mem_append_left _ hc)
    have hlen : a.len + (symbolsToBytes b.duration b.fec - (b.length + ((0 : Nat) : Int))) = a.len := by
      rw [← h.full]
      omega
    rw [hinfos, map_grant_of_due hsound hdue, hdue, hlen, hsplit]
  have hlen : b'.length = b.length := hlength.trans h.full.symm
  have hfull : b'.Full := by
    refine ⟨pre', a', post', rest, hsame.trans h.split, h.even, h.len, h.waits, h.lt, ?_, ?_, ?_⟩
    · rw [hlen, hsame]
      exact h.length
    · rw [hlength, hduration, hfec]
    · rw [hlen]
      exact h.nonneg
  refine ⟨⟨?_, ?_, Or.inr ⟨rfl, hfull⟩⟩, hfull, ?_, ?_⟩
  · rw [hsame]
    exact hk.sound
  · rw [hduration, hlen, hfec]
    exact hk.duration
  · rw [hsame]
  · rw [hsame]

/-- An open burst that is cut at a PDU becomes full. -/
theorem Open.recut {pre post : List AllocInfo} {a : AllocInfo} {b' : downBurst} {x : Int} (hx : 0 ≤ x)
    (h : b.Open) (hsound : ∀ a ∈ b.ConnectionCollection, a.Sound)
    (hsplit : b.ConnectionCollection = pre ++ a :: post) (hwaits : a.Waits)
    (hfits : bytesToSymbols (b.length + (pre.map AllocInfo.due).sum) b.fec ≤ x)
    (hfull : x < bytesToSymbols (b.length + (pre.map AllocInfo.due).sum + a.getNext) b.fec)
    (hlength : b'.length = symbolsToBytes x b.fec) (hfec : b'.fec = b.fec) (hduration : b'.duration = x)
    (hinfos : b'.ConnectionCollection = pre.map AllocInfo.grant ++
      { a with len := a.len + (symbolsToBytes x b.fec - (b.length + (pre.map AllocInfo.due).sum)) } :: post) :
    Recut available b b' := by
  obtain ⟨rest, hrest⟩ : ∃ rest, symbolsToBytes x b.fec - (b.length + (pre.map AllocInfo.due).sum) = rest := ⟨_, rfl⟩
  rw [hrest] at hinfos
  have hlen := h.length
  have hgranted : granted b'.ConnectionCollection = granted b.ConnectionCollection + (pre.map AllocInfo.due).sum := by
    rw [hinfos, hsplit, granted_append, granted_append, granted_cons, granted_cons, granted_grant]
    show _ + (a.granted + _) = _
    omega
  have ha : a ∈ b.ConnectionCollection := by
    rw [hsplit]
    exact List.mem_append_right _ List.mem_cons_self
  have hlt : rest < a.getNext := by
    by_contra hnot
    have hpos := (hsound a ha).getNext_pos hwaits
    refine absurd ((bytesToSymbols_le (x := x) (show 0 < b.length + (pre.map AllocInfo.due).sum + a.getNext by omega)
      b.fec).2 ?_) (Int.not_le.2 hfull)
    omega
  have hnonneg : 0 ≤ rest ∨ rest = -1 ∧ b'.length = -1 := by
    rcases (show 0 ≤ b.length + (pre.map AllocInfo.due).sum by omega).eq_or_lt with hzero | hpos
    · have hsize := blockSize_pos b.fec
      rcases hx.eq_or_lt with rfl | hone
      · refine Or.inr ⟨?_, ?_⟩
        · rw [← hrest, ← hzero, symbolsToBytes, Int.zero_mul]
          rfl
        · rw [hlength, symbolsToBytes, Int.zero_mul]
          rfl
      · left
        have hmul := Int.mul_le_mul_of_nonneg_right hone (show (0 : Int) ≤ uncodedBlockSize b.fec by omega)
        rw [Int.zero_add, Int.one_mul] at hmul
        rw [← hrest, ← hzero, symbolsToBytes]
        omega
    · left
      have hroom := (bytesToSymbols_le hpos b.fec).1 hfits
      omega
  have hcut : b'.Full := by
    refine ⟨pre.map AllocInfo.grant, { a with len := a.len + rest }, post, rest,
      hinfos, ?_, ?_, hwaits, hlt, ?_, ?_, hnonneg⟩
    · intro c hc
      rcases List.mem_append.1 hc with hc | hc
      · obtain ⟨d, hd, rfl⟩ := List.mem_map.1 hc
        exact (h.even d (by rw [hsplit]; exact List.mem_append_left _ hd)).grant
      · exact h.even c (by rw [hsplit]; exact List.mem_append_right _ (List.mem_cons_of_mem _ hc))
    · show a.len + rest = a.base + a.granted + rest
      rw [h.even a ha]
    · rw [hlength, hgranted]
      omega
    · rw [hlength, hduration, hfec]
  refine ⟨⟨?_, ?_, Or.inr ⟨rfl, hcut⟩⟩, hcut, ?_, ?_⟩
  · intro c hc
    rw [hinfos] at hc
    rcases List.mem_append.1 hc with hc | hc
    · obtain ⟨d, hd, rfl⟩ := List.mem_map.1 hc
      exact (hsound d (by rw [hsplit]; exact List.mem_append_left _ hd)).grant
    · rcases List.mem_cons.1 hc with rfl | hc
      · exact ⟨(hsound a ha).pos, (hsound a ha).le⟩
      · exact hsound c (by rw [hsplit]; exact List.mem_append_right _ (List.mem_cons_of_mem _ hc))
  · rw [hduration, hlength, hfec, toSymbol_toByte hx]
  · rw [hinfos, hsplit, List.map_append, List.map_append, keys_grant]
    rfl
  · rw [hinfos, hsplit, List.map_append, List.map_append, List.sum_append, List.sum_append]
    exact Nat.add_le_add_right (left_grant pre).1 _

/-- The turn of a burst in which a PDU does not fit. -/
theorem Kept.cut (hk : Kept available allocSymbols b) {pre post : List AllocInfo} {a : AllocInfo}
    (hsplit : b.ConnectionCollection = pre ++ a :: post)
    (hr : Cut available (allocSymbols - b.duration) b pre a post r) :
    Turn available allocSymbols isDone b (after r) r.2.1 := by
  obtain ⟨cid, hburst⟩ := hr.burst
  have hlength : r.1.length = symbolsToBytes (available - (allocSymbols - b.duration)) b.fec := by rw [hburst]
  have hfec : r.1.fec = b.fec := by rw [hburst]
  have hdiuc : r.1.diuc = b.diuc := by rw [hburst]
  have hfits := hr.fits
  have hfull := hr.full
  have hroom : 0 ≤ available - (allocSymbols - b.duration) := by
    have hlen := hk.length
    have hnonneg := bytesToSymbols_nonneg (show -1 ≤ b.length + (pre.map AllocInfo.due).sum by omega) b.fec
    omega
  have hduration : (after r).duration = available - (allocSymbols - b.duration) := by
    show bytesToSymbols r.1.length r.1.fec = _
    rw [hlength, hfec, toSymbol_toByte hroom]
  have hsum : allocSymbols - b.duration + (after r).duration = available := by omega
  have hrecut : Recut available b (after r) := by
    rcases hk.state with hopen | ⟨rfl, pre', a', post', rest, hfilled⟩
    · exact hopen.recut hroom hk.sound hsplit hr.waits (by omega) (by omega) hlength hfec hduration hr.infos
    · have hdur : allocSymbols - (allocSymbols - b.duration) = b.duration := by omega
      rw [hdur] at hlength hduration
      have hinfos := hr.infos
      rw [hdur] at hinfos
      exact hfilled.recut hk hsplit hfits hlength hfec hduration hinfos
  refine ⟨hsum.le, ?_, fun _ => hsum, hdiuc, hfec, hrecut.conns, hrecut.left, ?_, fun _ => Or.inr ⟨hrecut.full, hsum⟩⟩
  · rw [hsum]
    exact hrecut.kept
  · rw [hr.isDone]
    intro hdone
    cases hdone

/-- **One turn.** -/
theorem Kept.turn (hk : Kept available allocSymbols b) (hle : allocSymbols ≤ available) (isDone : Bool) :
    Turn available allocSymbols isDone b
      (after (b.select available (allocSymbols - b.duration) isDone b.ConnectionCollection))
      (b.select available (allocSymbols - b.duration) isDone b.ConnectionCollection).2.1 := by
  have hstart : allocSymbols - b.duration + bytesToSymbols b.length b.fec ≤ available := by
    rw [← hk.duration]
    omega
  rcases select_cases hstart isDone b.ConnectionCollection with hr | ⟨pre, a, post, hsplit, hr⟩
  · exact hk.granted hr
  · exact hk.cut hsplit hr

/-- More symbols are given away. -/
theorem Kept.later {allocSymbols' : Int} (hk : Kept available allocSymbols b)
    (h : allocSymbols = available → allocSymbols' = available) : Kept available allocSymbols' b :=
  ⟨hk.sound, hk.duration, hk.state.imp id fun hfilled => ⟨h hfilled.1, hfilled.2⟩⟩

/-- Which connections have a part in a burst. -/
def key (b : downBurst) : Fin 16 × Fin 7 × List (BurstConnection × List Nat) :=
  (b.diuc, b.fec, b.ConnectionCollection.map fun a => (a.conn, a.pduInfo))

end downBurst

namespace PMPBS

open downBurst

variable {available allocSymbols : Int} {bursts : List downBurst}

/-- No PDU waits. -/
def AllGranted (bursts : List downBurst) : Prop := ∀ b ∈ bursts, ∀ a ∈ b.ConnectionCollection, ¬ a.Waits

/-- The symbols of the bursts. -/
def symbols (bursts : List downBurst) : Int := (bursts.map downBurst.duration).sum

/-- What rounds do to the frame. -/
structure Round (available allocSymbols : Int) (bursts : List downBurst) (allocSymbols' : Int)
    (bursts' : List downBurst) : Prop where
  le : allocSymbols' ≤ available
  sum : allocSymbols' - symbols bursts' = allocSymbols - symbols bursts
  kept : ∀ b ∈ bursts', Kept available allocSymbols' b
  full : allocSymbols = available → allocSymbols' = available
  keys : bursts'.map downBurst.key = bursts.map downBurst.key
  left : waiting bursts' ≤ waiting bursts

/-- Two parts of a round. -/
theorem Round.trans {bursts' bursts'' : List downBurst} {allocSymbols' allocSymbols'' : Int}
    (h : Round available allocSymbols bursts allocSymbols' bursts')
    (h' : Round available allocSymbols' bursts' allocSymbols'' bursts'') :
    Round available allocSymbols bursts allocSymbols'' bursts'' :=
  ⟨h'.le, h'.sum.trans h.sum, h'.kept, fun hfull => h'.full (h.full hfull), h'.keys.trans h.keys,
    h'.left.trans h.left⟩

theorem waiting_cons (b : downBurst) (bursts : List downBurst) :
    waiting (b :: bursts) = (b.ConnectionCollection.map AllocInfo.left).sum + waiting bursts := rfl

theorem symbols_cons (b : downBurst) (bursts : List downBurst) :
    symbols (b :: bursts) = b.duration + symbols bursts := rfl

/-- **A round** over the bursts. -/
theorem round_round (hle : allocSymbols ≤ available) (hkept : ∀ b ∈ bursts, Kept available allocSymbols b)
    (isDone : Bool) :
    let r := round available allocSymbols isDone bursts
    Round available allocSymbols bursts r.1 r.2.2 ∧
      (r.2.1 = false → isDone = false ∨ waiting r.2.2 < waiting bursts) ∧
      (r.2.1 = true → isDone = true ∧ AllGranted r.2.2 ∨ (∃ b ∈ r.2.2, b.Full) ∧ r.1 = available) := by
  induction bursts generalizing allocSymbols isDone with
  | nil =>
    exact ⟨⟨hle, rfl, hkept, id, rfl, Nat.le_refl _⟩, Or.inl,
      fun hdone => Or.inl ⟨hdone, fun _ hb => absurd hb List.not_mem_nil⟩⟩
  | cons b bursts ih =>
    have hturn := (hkept b List.mem_cons_self).turn hle isDone
    intro r
    obtain ⟨selected, hselected⟩ : ∃ selected,
        b.select available (allocSymbols - b.duration) isDone b.ConnectionCollection = selected := ⟨_, rfl⟩
    rw [hselected] at hturn
    have hrest : ∀ c ∈ bursts, Kept available (allocSymbols - b.duration + (after selected).duration) c :=
      fun c hc => (hkept c (List.mem_cons_of_mem _ hc)).later hturn.full
    obtain ⟨hround, hdone, hend⟩ := ih hturn.le hrest selected.2.1
    obtain ⟨more, hmore⟩ : ∃ more,
        round available (allocSymbols - b.duration + (after selected).duration) selected.2.1 bursts = more := ⟨_, rfl⟩
    rw [hmore] at hround hdone hend
    have hr : r = (more.1, more.2.1, after selected :: more.2.2) := by
      show round available allocSymbols isDone (b :: bursts) = _
      rw [round, hselected, ← hmore]
      rfl
    rw [hr]
    refine ⟨⟨hround.le, ?_, ?_, fun hfull => hround.full (hturn.full hfull), ?_, ?_⟩, fun hnot => ?_, fun hall => ?_⟩
    · have hsum := hround.sum
      rw [symbols_cons, symbols_cons]
      omega
    · intro c hc
      rcases List.mem_cons.1 hc with rfl | hc
      · exact hturn.kept.later hround.full
      · exact hround.kept c hc
    · have hkey : (after selected).key = b.key := by
        unfold downBurst.key
        rw [hturn.diuc, hturn.fec, hturn.conns]
      rw [List.map_cons, List.map_cons, hround.keys, hkey]
    · rw [waiting_cons, waiting_cons]
      exact Nat.add_le_add hturn.left hround.left
    · rw [waiting_cons, waiting_cons]
      have hleft := hround.left
      have hfirst := hturn.left
      rcases hdone hnot with hnot | hlt
      · rcases hturn.more hnot with hnot | hlt
        · exact Or.inl hnot
        · right
          omega
      · right
        omega
    · rcases hend hall with ⟨hselected, hgranted⟩ | ⟨⟨c, hc, hfull⟩, havailable⟩
      · rcases hturn.done hselected with ⟨hdone, hnone⟩ | ⟨hfull, havailable⟩
        · exact Or.inl ⟨hdone, List.forall_mem_cons.2 ⟨hnone, hgranted⟩⟩
        · exact Or.inr ⟨⟨_, List.mem_cons_self, hfull⟩, hround.full havailable⟩
      · exact Or.inr ⟨⟨c, List.mem_cons_of_mem _ hc, hfull⟩, havailable⟩

/-- **The loop ends.** Each round but the last grants a PDU, and in the last one none waits or one did not
    fit. -/
theorem rounds_round (fuel : Nat) (hfuel : waiting bursts < fuel) (hle : allocSymbols ≤ available)
    (hkept : ∀ b ∈ bursts, Kept available allocSymbols b) :
    ∃ allocSymbols' bursts', rounds available fuel allocSymbols bursts = some (allocSymbols', bursts') ∧
      Round available allocSymbols bursts allocSymbols' bursts' ∧
      (AllGranted bursts' ∨ (∃ b ∈ bursts', b.Full) ∧ allocSymbols' = available) := by
  induction fuel generalizing allocSymbols bursts with
  | zero => exact absurd hfuel (Nat.not_lt_zero _)
  | succ fuel ih =>
    obtain ⟨hround, hdone, hend⟩ := round_round hle hkept true
    unfold rounds
    dsimp only
    by_cases hlast : (round available allocSymbols true bursts).2.1 = true
    · rw [if_pos hlast]
      exact ⟨_, _, rfl, hround, (hend hlast).imp And.right id⟩
    · rw [if_neg hlast]
      have hlt := (hdone (Bool.eq_false_iff.2 hlast)).resolve_left (by decide)
      obtain ⟨allocSymbols', bursts', hrounds, hmore, hall⟩ := ih (Nat.lt_of_lt_of_le hlt (Nat.le_of_lt_succ hfuel))
        hround.le hround.kept
      exact ⟨allocSymbols', bursts', hrounds, hround.trans hmore, hall⟩

end PMPBS

end Wimax
