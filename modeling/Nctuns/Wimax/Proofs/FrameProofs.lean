import Mathlib.Data.Fintype.Card
import Mathlib.Data.List.ReduceOption
import Nctuns.Wimax.Proofs.DownlinkProofs

/-!
# The layout of a frame

The bursts of the downlink and the allocations of the uplink follow each other without gaps, and the maps
tell where they are. The downlink keeps out of the uplink as long as the broadcast messages take no more
than the symbols that are kept for them.
-/

namespace Wimax

/-! ## Intervals that follow each other -/

/-- The intervals, each given by its start and its length, follow each other from `start` to `stop`. -/
def Tiled : (start : Int) → List (Int × Int) → (stop : Int) → Prop
  | start, [], stop => start = stop
  | start, (stime, duration) :: rest, stop => stime = start ∧ 0 < duration ∧ Tiled (start + duration) rest stop

namespace Tiled

variable {start stop stop' : Int} {spans spans' : List (Int × Int)}

/-- A tiling goes upwards. -/
theorem le (h : Tiled start spans stop) : start ≤ stop := by
  induction spans generalizing start with
  | nil => exact Int.le_of_eq h
  | cons span spans ih =>
    obtain ⟨-, hpos, hrest⟩ := h
    have hle := ih hrest
    omega

/-- Two tilings one behind the other. -/
theorem append (h : Tiled start spans stop) (h' : Tiled stop spans' stop') : Tiled start (spans ++ spans') stop' := by
  induction spans generalizing start with
  | nil =>
    obtain rfl : start = stop := h
    exact h'
  | cons span spans ih => exact ⟨h.1, h.2.1, ih h.2.2⟩

/-- The last interval ends where all end. -/
theorem last (h : Tiled start spans stop) {span : Int × Int} (hlast : span ∈ spans.getLast?) :
    span.1 + span.2 = stop := by
  induction spans generalizing start with
  | nil => exact absurd hlast (by simp)
  | cons first spans ih =>
    obtain ⟨hstart, -, hrest⟩ := h
    cases spans with
    | nil =>
      obtain rfl : first = span := by simpa using hlast
      rw [hstart]
      exact hrest
    | cons second spans => exact ih hrest (by simpa [List.getLast?_cons_cons] using hlast)

end Tiled

/-! ## The uplink -/

namespace upBurst

/-- Where the burst begins, and how long it lasts. -/
def span (b : upBurst) : Int × Int := (b.stime, b.duration)

/-- The span of an uplink burst whose fields are wide enough. -/
theorem span_new (cid : UInt16) (uiuc : Nat) {stime duration : Nat} (hstime : stime < 2 ^ 11)
    (hduration : duration < 2 ^ 10) : (new cid uiuc stime duration).span = ((stime : Int), (duration : Int)) := by
  unfold span new
  dsimp only
  rw [Nat.mod_eq_of_lt hstime, Nat.mod_eq_of_lt hduration]

/-- The uplink stops behind its last burst. -/
theorem stop_of_tiled {c : List upBurst} {stop : Int} (h : Tiled 0 (c.map span) stop) : (upBurst.stop c : Int) = stop := by
  unfold upBurst.stop
  cases hlast : c.getLast? with
  | none =>
    rw [List.getLast?_eq_none_iff] at hlast
    rw [hlast] at h
    exact h
  | some b =>
    have hend := h.last (show b.span ∈ _ by rw [List.getLast?_map, hlast]; rfl)
    unfold span at hend
    dsimp only at hend ⊢
    omega

end upBurst

namespace PMPBS

variable {s : PMPBS} {coin : Bool} {frame : Frame}

/-- The bursts of the stations that are invited. -/
theorem invited_tiled (cids : List UInt16) (k : Nat) (h : 5 * (k + cids.length) < 2 ^ 11) :
    Tiled (5 * k) ((cids.mapIdx fun i cid => upBurst.new cid 1 (5 * (k + i)) 5).map upBurst.span)
      (5 * (k + cids.length)) := by
  induction cids generalizing k with
  | nil =>
    show (5 * k : Int) = 5 * (k + ((0 : Nat) : Int))
    omega
  | cons cid cids ih =>
    rw [List.length_cons] at h ⊢
    rw [List.mapIdx_cons, List.map_cons, Nat.add_zero, upBurst.span_new _ _ (by omega) (by decide)]
    refine ⟨by omega, by decide, ?_⟩
    have hrest := ih (k + 1) (by omega)
    have hshift : (fun i cid => upBurst.new cid 1 (5 * (k + 1 + i)) 5) =
        fun i (cid : UInt16) => upBurst.new cid 1 (5 * (k + (i + 1))) 5 := by
      funext i cid
      rw [Nat.add_assoc, Nat.add_comm 1 i]
    rw [hshift] at hrest
    convert hrest using 1
    · push_cast
      omega
    · push_cast
      omega

/-- The bursts of the contention. -/
theorem ContentionScheduling_tiled (s : PMPBS) (h : s.ContentionScheduling.1.length ≤ 40) :
    Tiled 0 (s.ContentionScheduling.1.map upBurst.span) s.ContentionScheduling.2 ∧
      s.ContentionScheduling.2 ≤ 197 := by
  have hlen : s.PolledList.length ≤ 38 := by
    unfold ContentionScheduling at h
    simp only [List.length_append, List.length_mapIdx, List.length_cons, List.length_nil] at h
    omega
  have hinvited := invited_tiled s.PolledList 0 (by omega)
  simp only [Nat.zero_add, Nat.cast_zero, Int.mul_zero, Int.zero_add] at hinvited
  unfold ContentionScheduling
  dsimp only
  refine ⟨?_, by omega⟩
  rw [List.map_append]
  refine hinvited.append ?_
  rw [List.map_cons, List.map_cons, List.map_nil, upBurst.span_new _ _ (by omega) (by decide),
    upBurst.span_new _ _ (by omega) (by decide)]
  refine ⟨by push_cast; omega, by decide, by push_cast; omega, by decide, ?_⟩
  show _ = _
  push_cast
  omega

/-- The grants follow each other and keep to the symbols that are available. -/
theorem ugs_tiled {available : Int} {stime alloc alloc' : Nat} {sslist : List ssObject} {bursts : List upBurst}
    (h : s.ugs available stime alloc sslist = .ok (bursts, alloc')) (hmax : stime - alloc + available < 2 ^ 10)
    (hle : alloc ≤ stime) :
    Tiled stime (bursts.map upBurst.span) (stime + (alloc' - alloc)) ∧ (alloc = alloc' ∨ alloc' ≤ available) := by
  induction sslist generalizing stime alloc bursts with
  | nil =>
    obtain ⟨rfl, rfl⟩ := Prod.mk.inj (Except.ok.inj h)
    refine ⟨?_, Or.inl rfl⟩
    show (stime : Int) = _
    omega
  | cons pSS sslist ih =>
    unfold ugs at h
    cases hbits : pSS.bitsPerFrame with
    | none =>
      rw [hbits] at h
      exact ih h hmax hle
    | some bitsPerFrame =>
      rw [hbits] at h
      dsimp only at h
      generalize hsymbols : bytesToSymbols (bitsPerFrame / 8 : Nat) (s.UCDProfile pSS.uiuc) = symbols at h
      by_cases hnone : symbols ≤ 0
      · rw [if_pos hnone] at h
        cases h
      · rw [if_neg hnone] at h
        by_cases hmany : (alloc : Int) + (symbols + SHORT_PREAMBLE) > available
        · simp only [if_pos hmany] at h
          cases h
        · simp only [if_neg hmany] at h
          cases hrest : s.ugs available (stime + (symbols + SHORT_PREAMBLE).toNat)
            (alloc + (symbols + SHORT_PREAMBLE).toNat) sslist with
          | error e =>
            rw [hrest] at h
            cases h
          | ok r =>
            rw [hrest] at h
            obtain ⟨rfl, rfl⟩ := Prod.mk.inj (Except.ok.inj h)
            unfold SHORT_PREAMBLE at *
            obtain ⟨htiled, hend⟩ := ih hrest (by omega) (by omega)
            refine ⟨?_, ?_⟩
            · rw [List.map_cons, upBurst.span_new _ _ (by omega) (by omega)]
              refine ⟨rfl, by omega, ?_⟩
              convert htiled using 1
              · push_cast
                omega
              · push_cast
                omega
            · omega

/-- **The uplink** of a frame. -/
theorem uplink_tiled {upBursts : List upBurst} {available : Int} (h : s.uplink = .ok (upBursts, available))
    (hlen : upBursts.length ≤ 40) :
    ∃ stop, Tiled 0 (upBursts.map upBurst.span) stop ∧ stop ≤ 358 ∧ available = 687 - stop := by
  unfold uplink at h
  generalize hcontention : s.ContentionScheduling = contention at h
  obtain ⟨invited, symbols⟩ := contention
  dsimp only [LONG_PREAMBLE, DLFP_LEN, symbolsPerFrame] at h
  cases hgranted : s.UGSScheduling invited (358 - symbols) with
  | error e =>
    simp only [show ((720 - 2 - 1 : Int) / 2) = 358 from rfl, hgranted] at h
    cases h
  | ok r =>
    obtain ⟨granted, given⟩ := r
    simp only [show ((720 - 2 - 1 : Int) / 2) = 358 from rfl, hgranted] at h
    obtain ⟨rfl, rfl⟩ := Prod.mk.inj (Except.ok.inj h)
    rw [List.length_append] at hlen
    have hinvited := s.ContentionScheduling_tiled (by rw [hcontention]; exact Nat.le_of_add_right_le hlen)
    rw [hcontention] at hinvited
    obtain ⟨htiled, hsymbols⟩ := hinvited
    dsimp only at htiled hsymbols
    unfold UGSScheduling at hgranted
    rw [Int.ofNat_inj.1 (upBurst.stop_of_tiled htiled)] at hgranted
    obtain ⟨hgrants, hgiven⟩ := ugs_tiled hgranted (by omega) (Nat.zero_le _)
    refine ⟨symbols + given, ?_, ?_, ?_⟩
    · rw [List.map_append]
      refine htiled.append ?_
      convert hgrants using 1
      omega
    · omega
    · omega

end PMPBS

/-! ## The downlink -/

namespace downBurst

/-- Where the burst begins, and how long it lasts. -/
def span (b : downBurst) : Int × Int := (b.stime, b.duration)

/-- The symbols for the bytes of a burst. -/
def needs (b : downBurst) : Int := b.toSymbol b.length

/-- The symbols by which the first of its connections makes a burst longer. -/
def added (b : downBurst) : Int :=
  match b.ConnectionCollection with
  | [] => 0
  | a :: _ => b.needs - b.toSymbol (b.length - a.len)

end downBurst

namespace PMPBS

open downBurst

variable {s : PMPBS} {coin : Bool} {frame : Frame} {bursts : List downBurst}

/-- The bursts are placed one after the other, those without a symbol left out. -/
theorem place_tiled (len : Int) (hneeds : ∀ b ∈ bursts, 0 ≤ b.needs) (hlen : 0 ≤ len)
    (hmax : len + (bursts.map needs).sum < 2 ^ 11) :
    Tiled len (((place len bursts).filter fun b => b.duration ≠ 0).map downBurst.span)
      (len + (bursts.map needs).sum) := by
  induction bursts generalizing len with
  | nil =>
    show len = len + 0
    omega
  | cons b bursts ih =>
    obtain ⟨hb, hbursts⟩ := List.forall_mem_cons.1 hneeds
    have hrest : 0 ≤ (bursts.map needs).sum := List.sum_nonneg fun n hn => by
      obtain ⟨c, hc, rfl⟩ := List.mem_map.1 hn
      exact hbursts c hc
    rw [List.map_cons, List.sum_cons] at hmax ⊢
    have htail := ih (len + b.needs) hbursts (show 0 ≤ len + b.needs by omega) (by omega)
    rw [Int.add_assoc] at htail
    unfold place
    dsimp only
    by_cases hzero : b.needs = 0
    · rw [List.filter_cons_of_neg (by simpa [needs] using hzero)]
      rw [hzero] at htail ⊢
      rw [show b.toSymbol b.length = 0 from hzero]
      simpa using htail
    · rw [List.filter_cons_of_pos (by simpa [needs] using hzero), List.map_cons]
      refine ⟨?_, ?_, htail⟩
      · show ((len % 2 ^ 11).toNat : Int) = len
        omega
      · show 0 < b.needs
        omega

theorem length_place (len : Int) (bursts : List downBurst) : (place len bursts).length = bursts.length := by
  induction bursts generalizing len with
  | nil => rfl
  | cons b bursts ih => exact congrArg Nat.succ (ih _)

/-- All bursts with a payload are sent. -/
theorem mapM_send {c : BroadcastConnection} (h : ∀ b ∈ bursts, 0 ≤ b.length) :
    ∃ sents : List Sent, bursts.mapM (send c) = .ok sents ∧ sents.map Sent.burst = bursts ∧
      ∀ sent ∈ sents, send c sent.burst = .ok sent := by
  induction bursts with
  | nil => exact ⟨[], rfl, rfl, fun _ h => absurd h List.not_mem_nil⟩
  | cons b bursts ih =>
    obtain ⟨hb, hbursts⟩ := List.forall_mem_cons.1 h
    obtain ⟨sents, hmapM, hburst, hsent⟩ := ih hbursts
    obtain ⟨sent, hfirst, rfl⟩ : ∃ sent, send c b = .ok sent ∧ sent.burst = b := by
      unfold send
      rw [if_neg (Int.not_lt.2 hb)]
      exact ⟨_, rfl, rfl⟩
    refine ⟨sent :: sents, ?_, ?_, List.forall_mem_cons.2 ⟨hfirst, hsent⟩⟩
    · rw [List.mapM_cons, hfirst, hmapM]
      rfl
    · rw [List.map_cons, hburst]

end PMPBS

namespace BroadcastConnection

/-- What fits is sent as a whole. -/
theorem encapsulate_all {maxlen : Nat} {slots : List (Option BroadcastMessage)} {sendlen : Nat}
    (h : sendlen + (slots.reduceOption.map BroadcastMessage.pdulen).sum ≤ maxlen) :
    encapsulate maxlen slots sendlen = slots.reduceOption := by
  induction slots generalizing sendlen with
  | nil => rfl
  | cons slot slots ih =>
    cases slot with
    | none => exact ih h
    | some m =>
      rw [List.reduceOption_cons_of_some, List.map_cons, List.sum_cons] at h
      unfold encapsulate
      rw [if_neg (by omega), ih (by omega), List.reduceOption_cons_of_some]

/-- A broadcast burst with room for all messages. -/
theorem EncapsulateAll_all {c : BroadcastConnection} {maxlen : Nat} (h : c.GetInformation.1 ≤ maxlen) :
    c.EncapsulateAll maxlen = c.waiting :=
  encapsulate_all (by rw [Nat.zero_add]; exact h)

end BroadcastConnection

namespace PMPBS

open downBurst

variable {s : PMPBS} {coin : Bool} {frame : Frame} {bursts : List downBurst}

/-! ### Maps -/

/-- The UL-MAP holds at most 40 bursts. -/
theorem generate_UL_MAP_eq (s : PMPBS) {c : List upBurst} (allocStartTime : Int) {stop : Int}
    (htiled : Tiled 0 (c.map upBurst.span) stop) (hstop : stop < 2 ^ 11) :
    s.generate_UL_MAP c allocStartTime =
      if c.length ≤ 40 then
        .ok { s with
          broadcastConnection.ULMAP := some (allocStartTime,
            c.map upBurst.ie ++ [⟨broadcastCID, stop.toNat, EndOfMap, 0⟩]) }
      else .error .overrun := by
  unfold generate_UL_MAP
  have hlast : upBurst.stop c % 2 ^ 11 = stop.toNat := by
    have hend := upBurst.stop_of_tiled htiled
    omega
  dsimp only
  rw [hlast]
  by_cases hlen : c.length ≤ 40
  · rw [if_pos hlen, if_pos (by omega)]
  · rw [if_neg hlen, if_neg (by omega)]

/-- The elements of a complete DL-MAP. -/
def listed (c : List downBurst) : List OFDM_DLMAP_IE :=
  (if c.length = 0 then [⟨broadcastCID, RobustDIUC, 0, (DLFP_LEN + LONG_PREAMBLE).toNat⟩] else []) ++
    c.map downBurst.ie ++ [⟨broadcastCID, EndOfMap, 0, (endOfMap c % 2 ^ 11).toNat⟩]

/-- The complete DL-MAP. -/
theorem generate_DL_MAP_eq (hflag : s.dlmapflag = true) (c : List downBurst) :
    s.generate_DL_MAP c = { s with broadcastConnection.DLMAP := some (listed c) } := by
  unfold generate_DL_MAP listed
  rw [hflag, if_neg (by simp)]
  rfl

/-- The entries of the DL-MAP. -/
theorem length_listed (c : List downBurst) : (listed c).length = max c.length 1 + 1 := by
  unfold listed
  cases c <;> simp

/-! ### The broadcast messages -/

/-- The length of all broadcast messages. -/
theorem GetInformation_le {c : BroadcastConnection} {dl : List OFDM_DLMAP_IE} {t : Int} {ul : List OFDM_ULMAP_IE}
    (hdl : c.DLMAP = some dl) (hul : c.ULMAP = some (t, ul)) (hlen : dl.length ≤ 17) (hlen' : ul.length ≤ 41) :
    1 < c.GetInformation.1 ∧ c.GetInformation.1 ≤ 1915 := by
  have hslot : ∀ m : Option ManagementMessage, ∀ f : ManagementMessage → BroadcastMessage,
      (∀ mmsg, (f mmsg).pdulen = mmsg.pdulen) →
      ∀ slots, (((m.map f :: slots).reduceOption).map BroadcastMessage.pdulen).sum ≤
        522 + (slots.reduceOption.map BroadcastMessage.pdulen).sum := by
    intro m f hf slots
    cases m with
    | none => exact Nat.le_add_left _ _
    | some mmsg =>
      have hmax := mmsg.max
      rw [Option.map_some, List.reduceOption_cons_of_some, List.map_cons, List.sum_cons, hf]
      unfold ManagementMessage.pdulen
      omega
  have hDCD := hslot c.DCD .DCD (fun _ => rfl) [c.UCD.map .UCD, c.CLKCMP.map .CLKCMP]
  have hUCD := hslot c.UCD .UCD (fun _ => rfl) [c.CLKCMP.map .CLKCMP]
  have hCLKCMP := hslot c.CLKCMP .CLKCMP (fun _ => rfl) []
  unfold BroadcastConnection.GetInformation BroadcastConnection.waiting BroadcastConnection.Slot
  rw [hdl, hul]
  dsimp only [Option.map_some]
  rw [List.reduceOption_cons_of_some, List.reduceOption_cons_of_some, List.map_cons, List.map_cons, List.sum_cons,
    List.sum_cons]
  simp only [BroadcastMessage.pdulen, BroadcastMessage.getLen] at *
  simp only [List.reduceOption_nil, List.map_nil, List.sum_nil] at hCLKCMP
  omega

/-- The broadcast messages become the first part of the first burst. -/
theorem addBroadcast_eq (h : 0 < s.broadcastConnection.GetInformation.1) (bursts : List downBurst) :
    ∃ b rest, (bursts = b :: rest ∨ bursts = [] ∧ rest = [] ∧ b = .new RobustDIUC (s.DCDProfile RobustDIUC)) ∧
      s.addBroadcast bursts = { b with
        ConnectionCollection :=
          .new .broadcast s.broadcastConnection.GetInformation.1 s.broadcastConnection.GetInformation.2 ::
            b.ConnectionCollection
        length := b.length + s.broadcastConnection.GetInformation.1
        cid := broadcastCID } :: rest := by
  unfold addBroadcast
  dsimp only
  rw [if_pos h]
  cases bursts with
  | nil => exact ⟨_, [], Or.inr ⟨rfl, rfl, rfl⟩, rfl⟩
  | cons b rest => exact ⟨b, rest, Or.inl rfl, rfl⟩

/-- The symbols for `x` blocks hold as many bytes more. -/
theorem bytesToSymbols_add_le {length more x : Int} (hlength : -1 ≤ length) (hmore : 1 < more) (hfits : more < x * 12)
    (hx : 0 ≤ x) (fec : Fin 7) : bytesToSymbols (length + more) fec ≤ bytesToSymbols length fec + x := by
  have hsize := blockSize_pos fec
  have hblocks := Int.mul_le_mul_of_nonneg_left hsize hx
  rw [bytesToSymbols_le (by omega)]
  by_cases hpos : 0 < length
  · have hroom := (bytesToSymbols_le hpos fec).1 (Int.le_refl _)
    unfold symbolsToBytes at hroom ⊢
    rw [Int.add_mul]
    omega
  · have hnonneg := bytesToSymbols_nonneg hlength fec
    have hmul := Int.mul_nonneg hnonneg (show (0 : Int) ≤ uncodedBlockSize fec by omega)
    unfold symbolsToBytes
    rw [Int.add_mul]
    omega

/-- A payload needs symbols. -/
theorem needs_pos {b : downBurst} (h : 0 < b.length) : 0 < b.needs := by
  by_contra hnot
  have hsmall := (bytesToSymbols_le h b.fec).1 (Int.not_lt.1 hnot)
  unfold symbolsToBytes at hsmall
  omega

/-- The bursts that `DLScheduling` returns. -/
structure Body (s : PMPBS) (available alloc : Int) (bursts : List downBurst) : Prop where
  length : ∀ b ∈ bursts, -1 ≤ b.length
  own : ∀ b ∈ bursts, ∀ a ∈ b.ConnectionCollection, a.conn ≠ .broadcast
  sum : (bursts.map needs).sum = alloc
  few : bursts.length ≤ 16
  done : s.demand ≤ available → ∀ b ∈ bursts, (∀ a ∈ b.ConnectionCollection, a.Done) ∧
    b.length = total b.ConnectionCollection
  listed : ∀ conn, s.Waits conn → Listed conn bursts

/-- The bursts in the order of their profiles. -/
theorem Downlink.body {available alloc : Int} (h : s.Downlink available alloc bursts) :
    s.Body available alloc (bursts.mergeSort fun a b => a.diuc ≤ b.diuc) := by
  have hperm := List.mergeSort_perm bursts fun a b => a.diuc ≤ b.diuc
  refine ⟨fun b hb => (h.kept b (hperm.mem_iff.1 hb)).length,
    fun b hb a ha => (h.lists b (hperm.mem_iff.1 hb) a ha).1, ?_, ?_, fun hfits b hb => ?_, fun conn hwaits => ?_⟩
  · rw [(hperm.map needs).sum_eq, ← h.sum]
    exact congrArg List.sum (List.map_congr_left fun b hb => (h.kept b hb).duration.symm)
  · rw [hperm.length_eq, ← List.length_map]
    exact h.profiles.length_le_card
  · have hb' := hperm.mem_iff.1 hb
    have hall := h.all.2 hfits
    have hopen := hall.open h.kept b hb'
    refine ⟨fun a ha => ⟨?_, h.lists b hb' a ha⟩, hopen.length_eq (hall b hb')⟩
    rw [hopen.even a ha, AllocInfo.granted_eq (hall b hb' a ha)]
  · obtain ⟨b, hb, hlisted⟩ := h.listed conn hwaits
    exact ⟨b, hperm.mem_iff.2 hb, hlisted⟩

/-- The bursts with the broadcast messages, which take `len` bytes, in front. -/
structure Front (s : PMPBS) (available alloc : Int) (len : Nat) (first : downBurst) (rest : List downBurst) :
    Prop where
  length : ∀ b ∈ first :: rest, -1 ≤ b.length
  pos : 0 < first.needs
  conns : ∃ info as, first.ConnectionCollection = .new .broadcast len info :: as ∧
    (∀ a ∈ as, a.conn ≠ .broadcast) ∧
    (s.demand ≤ available → (∀ a ∈ as, a.Done) ∧ first.length = total as + len)
  own : ∀ b ∈ rest, ∀ a ∈ b.ConnectionCollection, a.conn ≠ .broadcast
  sum : ((first :: rest).map needs).sum = alloc + first.added
  added : first.added ≤ 160
  fits : len < 30 * 12 → first.added ≤ 30
  done : s.demand ≤ available → ∀ b ∈ rest, (∀ a ∈ b.ConnectionCollection, a.Done) ∧
    b.length = total b.ConnectionCollection
  listed : ∀ conn, s.Waits conn → Listed conn (first :: rest)

/-- The broadcast connection goes first. -/
theorem Body.addBroadcast {available alloc : Int} (h : s.Body available alloc bursts) {t : PMPBS} {len : Nat}
    (hlen : t.broadcastConnection.GetInformation.1 = len) (hpos : 1 < len) (hmax : len ≤ 1915) :
    ∃ first rest, t.addBroadcast bursts = first :: rest ∧ s.Front available alloc len first rest ∧
      rest.length + 1 = max bursts.length 1 := by
  obtain ⟨b, rest, hbursts, hadd⟩ := t.addBroadcast_eq (by omega) bursts
  rw [hlen] at hadd
  refine ⟨_, rest, hadd, ?_, ?_⟩
  · have hbody : s.Body available alloc (b :: rest) := by
      rcases hbursts with rfl | ⟨rfl, rfl, rfl⟩
      · exact h
      · refine ⟨?_, ?_, h.sum, show (1 : Nat) ≤ 16 by decide, fun _ => ?_, fun conn hwaits => ?_⟩
        · exact List.forall_mem_singleton.2 (show (-1 : Int) ≤ 0 by decide)
        · exact List.forall_mem_singleton.2 fun a ha => absurd ha List.not_mem_nil
        · exact List.forall_mem_singleton.2 ⟨fun a ha => absurd ha List.not_mem_nil, rfl⟩
        · obtain ⟨c, hc, -⟩ := h.listed conn hwaits
          exact absurd hc List.not_mem_nil
    obtain ⟨hb, hrest⟩ := List.forall_mem_cons.1 hbody.length
    have hless : bytesToSymbols b.length b.fec ≤ bytesToSymbols (b.length + len) b.fec :=
      bytesToSymbols_mono hb (by omega) _
    have hmore := bytesToSymbols_add_le (x := 160) hb (show (1 : Int) < len by omega) (by omega) (by decide) b.fec
    have hsame : b.length + (len : Int) - len = b.length := by omega
    refine ⟨List.forall_mem_cons.2 ⟨?_, hrest⟩, ?_, ⟨_, _, rfl, (List.forall_mem_cons.1 hbody.own).1, fun hfits => ?_⟩,
      (List.forall_mem_cons.1 hbody.own).2, ?_, ?_, fun hsmall => ?_,
      fun hfits => (List.forall_mem_cons.1 (hbody.done hfits)).2, fun conn hwaits => ?_⟩
    · show -1 ≤ b.length + (len : Int)
      omega
    · refine needs_pos ?_
      show 0 < b.length + (len : Int)
      omega
    · obtain ⟨hdone, hlength⟩ := (List.forall_mem_cons.1 (hbody.done hfits)).1
      exact ⟨hdone, by rw [hlength]⟩
    · have hsum := hbody.sum
      rw [List.map_cons, List.sum_cons] at hsum ⊢
      show bytesToSymbols (b.length + len) b.fec + _ =
        alloc + (bytesToSymbols (b.length + len) b.fec - bytesToSymbols (b.length + (len : Int) - len) b.fec)
      rw [hsame, ← hsum]
      show _ = bytesToSymbols b.length b.fec + _ + _
      omega
    · show bytesToSymbols (b.length + len) b.fec - bytesToSymbols (b.length + (len : Int) - len) b.fec ≤ 160
      rw [hsame]
      omega
    · have hmore := bytesToSymbols_add_le (x := 30) hb (show (1 : Int) < len by omega) (by omega) (by decide) b.fec
      show bytesToSymbols (b.length + len) b.fec - bytesToSymbols (b.length + (len : Int) - len) b.fec ≤ 30
      rw [hsame]
      omega
    · obtain ⟨c, hc, a, ha, hconn⟩ := hbody.listed conn hwaits
      rcases List.mem_cons.1 hc with rfl | hc
      · exact ⟨_, List.mem_cons_self, a, List.mem_cons_of_mem _ ha, hconn⟩
      · exact ⟨c, List.mem_cons_of_mem _ hc, a, ha, hconn⟩
  · rcases hbursts with rfl | ⟨rfl, rfl, rfl⟩
    · simp
    · rfl

/-! ### The frame -/

/-- A burst that is placed is one of the bursts. -/
theorem mem_place {len : Int} {b : downBurst} (h : b ∈ place len bursts) :
    ∃ c ∈ bursts, ∃ stime, b = { c with stime := stime, duration := c.needs } := by
  induction bursts generalizing len with
  | nil => exact absurd h List.not_mem_nil
  | cons c bursts ih =>
    rcases List.mem_cons.1 h with rfl | h
    · exact ⟨c, List.mem_cons_self, _, rfl⟩
    · obtain ⟨d, hd, hb⟩ := ih h
      exact ⟨d, List.mem_cons_of_mem _ hd, hb⟩

/-- Every burst is placed. -/
theorem mem_place_of_mem {b : downBurst} (len : Int) (h : b ∈ bursts) :
    ∃ stime, { b with stime := stime, duration := b.needs } ∈ place len bursts := by
  induction bursts generalizing len with
  | nil => exact absurd h List.not_mem_nil
  | cons c bursts ih =>
    rcases List.mem_cons.1 h with rfl | h
    · exact ⟨_, List.mem_cons_self⟩
    · obtain ⟨stime, hb⟩ := ih (len + c.needs) h
      exact ⟨stime, List.mem_cons_of_mem _ hb⟩

/-- A burst that has symbols has a payload. -/
theorem length_of_place (len : Int) (hlength : ∀ b ∈ bursts, -1 ≤ b.length) :
    ∀ b ∈ (place len bursts).filter fun b => b.duration ≠ 0, 0 < b.length := by
  intro b hb
  obtain ⟨hb, hduration⟩ := List.mem_filter.1 hb
  obtain ⟨c, hc, stime, rfl⟩ := mem_place hb
  have hlow := hlength c hc
  have hnot : c.needs ≠ 0 := by simpa using hduration
  show 0 < c.length
  by_contra hle
  rcases (show c.length = -1 ∨ c.length = 0 by omega) with hzero | hzero
  · refine hnot ?_
    show bytesToSymbols c.length c.fec = 0
    rw [hzero, bytesToSymbols_neg_one]
  · refine hnot ?_
    show bytesToSymbols c.length c.fec = 0
    rw [hzero, bytesToSymbols_zero]

/-- Only the broadcast connection sends its messages. -/
theorem write_of_own {c : BroadcastConnection} {a : AllocInfo} (h : a.conn ≠ .broadcast) : (write c a).2 = [] := by
  unfold write
  cases hconn : a.conn with
  | broadcast => exact absurd hconn h
  | management m => rfl
  | data d => rfl

/-- What is written for each connection of a burst. -/
theorem written_of_send {c : BroadcastConnection} {sent : Sent} (hsent : send c sent.burst = .ok sent) :
    sent.written = sent.burst.ConnectionCollection.map fun a => (write c a).1 := by
  unfold send at hsent
  split at hsent
  · cases hsent
  · rw [← Except.ok.inj hsent]

/-- A burst without the broadcast connection has no messages. -/
theorem messages_of_own {c : BroadcastConnection} {sent : Sent} (hsent : send c sent.burst = .ok sent)
    (hown : ∀ a ∈ sent.burst.ConnectionCollection, a.conn ≠ .broadcast) : sent.messages = [] := by
  unfold send at hsent
  split at hsent
  · cases hsent
  · rw [← Except.ok.inj hsent]
    exact List.flatMap_eq_nil_iff.2 fun a ha => write_of_own (hown a ha)

theorem requestLen_new {len : Nat} (h : len < 2 ^ 32) (info : List Nat) :
    requestLen (.new .broadcast len info) = len := by
  show ((len : Int) % 2 ^ 32).toNat = len
  omega

/-- The first burst has all the messages. -/
theorem messages_of_front {c : BroadcastConnection} {sent : Sent} {len : Nat} {info : List Nat} {as : List AllocInfo}
    (hsent : send c sent.burst = .ok sent)
    (hconns : sent.burst.ConnectionCollection = .new .broadcast len info :: as) (has : ∀ a ∈ as, a.conn ≠ .broadcast)
    (hlen : c.GetInformation.1 ≤ len) (hmax : len < 2 ^ 32) : sent.messages = c.waiting := by
  unfold send at hsent
  split at hsent
  · cases hsent
  · have hrest : as.flatMap (fun a => (write c a).2) = [] :=
      List.flatMap_eq_nil_iff.2 fun a ha => write_of_own (has a ha)
    rw [← Except.ok.inj hsent]
    dsimp only
    rw [hconns, List.flatMap_cons, hrest, List.append_nil]
    show c.EncapsulateAll (requestLen (.new .broadcast len info)) = _
    rw [requestLen_new hmax, BroadcastConnection.EncapsulateAll_all hlen]

/-! ### What is written -/

/-- The loop sends the whole queue when it fits. -/
theorem encapsulate_queue {maxlen : Nat} {PduQ : List ManagementMessage} {sendlen : Nat}
    (h : sendlen + (PduQ.map ManagementMessage.pdulen).sum ≤ maxlen) :
    ManagementConnection.encapsulate maxlen PduQ sendlen = sendlen + (PduQ.map ManagementMessage.pdulen).sum := by
  induction PduQ generalizing sendlen with
  | nil => rfl
  | cons mmsg PduQ ih =>
    rw [List.map_cons, List.sum_cons] at h ⊢
    have hpos : 0 < mmsg.pdulen := by
      unfold ManagementMessage.pdulen
      omega
    unfold ManagementConnection.encapsulate
    rw [if_pos (by omega), if_neg (by omega), ih (by omega), Nat.add_assoc]

/-- A connection of which all is granted sends all. -/
theorem write_of_done (c : BroadcastConnection) {a : AllocInfo} (h : a.Done) : (write c a).1 = a.pduInfo.sum := by
  have hlen := h.len
  obtain ⟨hown, hinfo⟩ := h.lists
  unfold write AllocInfo.base requestLen at *
  rw [hinfo] at hlen ⊢
  cases hconn : a.conn with
  | broadcast => exact absurd hconn hown
  | management m =>
    rw [hconn] at hlen
    have hmax := m.max
    unfold BurstConnection.PduInfo ManagementConnection.GetInformation at *
    dsimp only at hlen ⊢
    unfold ManagementConnection.EncapsulateAll
    rw [encapsulate_queue (by omega), Nat.zero_add]
  | data d =>
    rw [hconn] at hlen
    have hmax := d.max
    unfold BurstConnection.PduInfo at *
    dsimp only at hlen ⊢
    rw [d.GetInformation_eq] at hlen ⊢
    change d.toConnection.needed.sum < 2 ^ 31 at hmax
    have hready := Connection.run_ready (Connection.new_ready d.k d.cid 0 false) d.calls
    have hagrees : d.toConnection.ReportAgrees := (Connection.reportAgrees_iff hready).2 hmax
    obtain ⟨total, info, hreport, hsent, -⟩ := hagrees
    rw [Connection.GetInformation_eq, if_pos hmax] at hreport
    obtain ⟨rfl, -⟩ := Prod.mk.inj (Except.ok.inj hreport)
    unfold DataConnection.EncapsulateAll
    have hrequest : (a.len % 2 ^ 32).toNat = d.toConnection.needed.sum := by
      dsimp only at hlen
      omega
    rw [hrequest]
    exact hsent

/-- What is written into a burst in which all is granted. -/
theorem sum_write (c : BroadcastConnection) {as : List AllocInfo} (h : ∀ a ∈ as, a.Done) :
    (as.map fun a => (write c a).1).sum = total as :=
  congrArg List.sum (List.map_congr_left fun a ha => write_of_done c (h a ha))

theorem mem_zip_map {α β : Type} (f : α → β) {as : List α} {a : α} (h : a ∈ as) : (a, f a) ∈ as.zip (as.map f) := by
  induction as with
  | nil => exact absurd h List.not_mem_nil
  | cons c as ih =>
    rw [List.map_cons, List.zip_cons_cons]
    rcases List.mem_cons.1 h with rfl | h
    · exact List.mem_cons_self
    · exact List.mem_cons_of_mem _ (ih h)

/-- A connection with something waiting has a PDU. -/
theorem Waits.sum_pos {conn : BurstConnection} (h : s.Waits conn) : 0 < conn.PduInfo.sum := by
  cases conn with
  | broadcast => exact absurd h id
  | management c => exact h.1
  | data c =>
    have hpos := h.1
    unfold BurstConnection.PduInfo
    dsimp only
    rw [c.GetInformation_eq] at hpos ⊢
    exact hpos

/-- **Everything is sent.** The payload of each burst fits into it, and each connection has written all that
    it had. -/
structure SendsAll (s : PMPBS) (frame : Frame) : Prop where
  fits : ∀ sent ∈ frame.bursts, (sent.written.sum : Int) ≤ sent.burst.length
  sent : ∀ conn, s.Waits conn → ∃ sent ∈ frame.bursts, ∃ a, (a, conn.PduInfo.sum) ∈
    sent.burst.ConnectionCollection.zip sent.written ∧ a.conn = conn

/-- **The layout of a frame.** The downlink begins at the symbol 3 and the uplink at `upStart`. -/
structure Layout (s : PMPBS) (frame : Frame) (downStop upStart upStop : Int) (first : Sent) (rest : List Sent) :
    Prop where
  downlink : Tiled (LONG_PREAMBLE + DLFP_LEN) (frame.bursts.map fun sent => sent.burst.span) downStop
  length : ∀ sent ∈ frame.bursts, 0 < sent.burst.length
  start : frame.allocStartTime = symbolsToPSs upStart
  uplink : Tiled 0 (frame.upBursts.map upBurst.span) upStop
  inside : upStart + upStop ≤ symbolsPerFrame
  bursts : frame.bursts = first :: rest
  /-- 30 symbols are kept for the broadcast messages. -/
  reserve : downStop ≤ upStart ↔ first.burst.added ≤ 30
  /-- In the most robust code they hold 359 bytes. -/
  robust : (∀ a ∈ first.burst.ConnectionCollection.head?, a.len < 30 * 12) → downStop ≤ upStart
  messages : first.messages = frame.broadcastConnection.waiting
  others : ∀ sent ∈ rest, sent.messages = []
  maps : frame.broadcastConnection = { s.broadcastConnection with
    DLMAP := some (frame.bursts.map (fun sent => sent.burst.ie) ++ [⟨broadcastCID, EndOfMap, 0, downStop.toNat⟩])
    ULMAP := some (frame.allocStartTime,
      frame.upBursts.map upBurst.ie ++ [⟨broadcastCID, upStop.toNat, EndOfMap, 0⟩]) }

/-- The downlink ends behind its last burst. -/
theorem endOfMap_of_tiled {start stop : Int} (hne : bursts ≠ []) (h : Tiled start (bursts.map downBurst.span) stop) :
    endOfMap bursts = stop := by
  unfold endOfMap
  cases hlast : bursts.getLast? with
  | none => exact absurd (List.getLast?_eq_none_iff.1 hlast) hne
  | some b => exact h.last (show b.span ∈ _ by rw [List.getLast?_map, hlast]; rfl)

/-- A shorter DL-MAP does not make the broadcast messages longer. -/
theorem GetInformation_mono {c : BroadcastConnection} {ies ies' : List OFDM_DLMAP_IE} (h : ies'.length ≤ ies.length) :
    (BroadcastConnection.GetInformation { c with DLMAP := some ies' }).1 ≤
      (BroadcastConnection.GetInformation { c with DLMAP := some ies }).1 := by
  unfold BroadcastConnection.GetInformation BroadcastConnection.waiting BroadcastConnection.Slot
  dsimp only [Option.map_some]
  rw [List.reduceOption_cons_of_some, List.reduceOption_cons_of_some, List.map_cons, List.map_cons, List.sum_cons,
    List.sum_cons]
  refine Nat.add_le_add_right ?_ _
  unfold BroadcastMessage.pdulen BroadcastMessage.getLen
  dsimp only
  omega

/-- **The downlink** of a frame. -/
theorem Front.placed {available alloc : Int} {len : Nat} {first : downBurst} {rest : List downBurst}
    (h : s.Front available alloc len first rest) (halloc : alloc ≤ 687) :
    ∃ tail, (place (LONG_PREAMBLE + DLFP_LEN) (first :: rest)).filter (fun b => b.duration ≠ 0) =
        { first with stime := 3, duration := first.needs } :: tail ∧
      Tiled (LONG_PREAMBLE + DLFP_LEN)
        (({ first with stime := 3, duration := first.needs } :: tail).map downBurst.span) (3 + alloc + first.added) ∧
      (∀ b ∈ tail, ∃ c ∈ rest, b.ConnectionCollection = c.ConnectionCollection ∧ b.length = c.length) ∧
      (∀ c ∈ rest, 0 < c.length → ∃ b ∈ tail, b.ConnectionCollection = c.ConnectionCollection) ∧
      tail.length ≤ rest.length ∧
      ∀ b ∈ { first with stime := 3, duration := first.needs } :: tail, 0 < b.length := by
  have hadded := h.added
  have htiled := place_tiled (LONG_PREAMBLE + DLFP_LEN) (fun b hb => bytesToSymbols_nonneg (h.length b hb) b.fec)
    (by decide) (by rw [h.sum, LONG_PREAMBLE, DLFP_LEN]; omega)
  have hlength := length_of_place (LONG_PREAMBLE + DLFP_LEN) h.length
  have hplaced : (place (LONG_PREAMBLE + DLFP_LEN) (first :: rest)).filter (fun b => b.duration ≠ 0) =
      { first with stime := 3, duration := first.needs } ::
        (place (LONG_PREAMBLE + DLFP_LEN + first.needs) rest).filter fun b => b.duration ≠ 0 := by
    have hpos := h.pos
    have hfirst : first.needs ≠ 0 := by omega
    have hcons : place (LONG_PREAMBLE + DLFP_LEN) (first :: rest) =
      { first with stime := 3, duration := first.needs } :: place (LONG_PREAMBLE + DLFP_LEN + first.needs) rest := rfl
    rw [hcons, List.filter_cons_of_pos (by simpa using hfirst)]
  rw [hplaced] at htiled hlength
  refine ⟨_, hplaced, ?_, ?_, ?_, ?_, hlength⟩
  · rw [h.sum] at htiled
    convert htiled using 1
    unfold LONG_PREAMBLE DLFP_LEN
    omega
  · intro b hb
    obtain ⟨c, hc, stime, rfl⟩ := mem_place (List.mem_of_mem_filter hb)
    exact ⟨c, hc, rfl, rfl⟩
  · intro c hc hpos
    have hneeds := needs_pos hpos
    obtain ⟨stime, hmem⟩ := mem_place_of_mem (LONG_PREAMBLE + DLFP_LEN + first.needs) hc
    exact ⟨_, List.mem_filter.2 ⟨hmem, by simpa using hneeds.ne'⟩, rfl⟩
  · rw [← length_place (LONG_PREAMBLE + DLFP_LEN + first.needs) rest]
    exact List.length_filter_le _ _

/-! ### How a frame is put together -/

section Maps

variable {upMap : Int × List OFDM_ULMAP_IE} {sorted placed : List downBurst}

/-- The scheduler with an UL-MAP. -/
def mapped (s : PMPBS) (upMap : Int × List OFDM_ULMAP_IE) : PMPBS :=
  { s with broadcastConnection.ULMAP := some upMap }

/-- The maps when the broadcast messages are put in front. -/
theorem mapped_eq (hflag : s.dlmapflag = true) : ((s.mapped upMap).generate_DL_MAP sorted).broadcastConnection =
    { s.broadcastConnection with DLMAP := some (listed sorted), ULMAP := some upMap } := by
  rw [generate_DL_MAP_eq (show (s.mapped upMap).dlmapflag = true from hflag)]
  rfl

/-- The DL-MAP is made a second time, for the bursts that are placed. -/
theorem remapped_eq (hflag : s.dlmapflag = true) :
    (((s.mapped upMap).generate_DL_MAP sorted).generate_DL_MAP placed).broadcastConnection =
      { s.broadcastConnection with DLMAP := some (listed placed), ULMAP := some upMap } := by
  have hflag' : (s.mapped upMap).dlmapflag = true := hflag
  rw [generate_DL_MAP_eq (by rw [generate_DL_MAP_eq hflag']; exact hflag'), generate_DL_MAP_eq hflag']
  rfl

/-- The length of the broadcast messages that are put in front. -/
theorem broadcast_le (hflag : s.dlmapflag = true) (hfew : sorted.length ≤ 16) (hmany : upMap.2.length ≤ 41) :
    1 < ((s.mapped upMap).generate_DL_MAP sorted).broadcastConnection.GetInformation.1 ∧
      ((s.mapped upMap).generate_DL_MAP sorted).broadcastConnection.GetInformation.1 ≤ 1915 := by
  have hlisted : (listed sorted).length ≤ 17 := by
    rw [length_listed]
    omega
  rw [mapped_eq hflag]
  exact GetInformation_le rfl rfl hlisted hmany

/-- The second DL-MAP makes the broadcast messages no longer. -/
theorem remapped_le (hflag : s.dlmapflag = true) (hle : max placed.length 1 ≤ max sorted.length 1) :
    (((s.mapped upMap).generate_DL_MAP sorted).generate_DL_MAP placed).broadcastConnection.GetInformation.1 ≤
      ((s.mapped upMap).generate_DL_MAP sorted).broadcastConnection.GetInformation.1 := by
  rw [remapped_eq hflag, mapped_eq hflag]
  refine GetInformation_mono (c := { s.broadcastConnection with ULMAP := some upMap }) ?_
  rw [length_listed, length_listed]
  omega

end Maps

/-- How a frame is put together: the bursts `first :: rest`, the first one with the broadcast messages of
    `len` bytes, are placed as `first` and `tail`. -/
structure Built (s : PMPBS) (alloc upStop : Int) (len : Nat) (first : downBurst) (rest tail : List downBurst)
    (frame : Frame) : Prop where
  front : s.Front (687 - upStop) alloc len first rest
  bursts : frame.bursts.map Sent.burst = { first with stime := 3, duration := first.needs } :: tail
  downlink : Tiled (LONG_PREAMBLE + DLFP_LEN) ((frame.bursts.map Sent.burst).map downBurst.span)
    (3 + alloc + first.added)
  length : ∀ x ∈ frame.bursts, 0 < x.burst.length
  origin : ∀ b ∈ tail, ∃ d ∈ rest, b.ConnectionCollection = d.ConnectionCollection ∧ b.length = d.length
  keep : ∀ d ∈ rest, 0 < d.length → ∃ b ∈ tail, b.ConnectionCollection = d.ConnectionCollection
  sends : ∀ x ∈ frame.bursts, send frame.broadcastConnection x.burst = .ok x
  start : frame.allocStartTime = symbolsToPSs (LONG_PREAMBLE + 1 + alloc + 30)
  uplink : Tiled 0 (frame.upBursts.map upBurst.span) upStop
  alloc_le : alloc ≤ 687 - upStop
  shorter : frame.broadcastConnection.GetInformation.1 ≤ len
  len_le : len ≤ 1915
  maps : frame.broadcastConnection = { s.broadcastConnection with
    DLMAP := some (listed (frame.bursts.map Sent.burst))
    ULMAP := some (frame.allocStartTime,
      frame.upBursts.map upBurst.ie ++ [⟨broadcastCID, upStop.toNat, EndOfMap, 0⟩]) }

/-- With at most 40 allocations of the uplink the scheduler puts a frame together. -/
theorem Scheduling_built {upBursts : List upBurst} {available : Int} (hup : s.uplink = .ok (upBursts, available))
    (hlen : upBursts.length ≤ 40) (hflag : s.dlmapflag = true) (coin : Bool) :
    ∃ frame alloc upStop len first rest tail, s.Scheduling coin = .ok frame ∧ available = 687 - upStop ∧
      s.Built alloc upStop len first rest tail frame := by
  obtain ⟨upStop, hup', hstop, rfl⟩ := uplink_tiled hup hlen
  obtain ⟨alloc, bursts, hdl, hdown⟩ := s.DLScheduling_ends coin (show 0 ≤ 687 - upStop by omega)
  have hle := hdown.le
  have hnonneg := hup'.le
  have hbody := hdown.body
  obtain ⟨sorted, hsorted⟩ : ∃ sorted, bursts.mergeSort (fun a b => a.diuc ≤ b.diuc) = sorted := ⟨_, rfl⟩
  rw [hsorted] at hbody
  obtain ⟨upMap, hupMap⟩ : ∃ upMap : Int × List OFDM_ULMAP_IE, upMap = (symbolsToPSs (LONG_PREAMBLE + 1 + alloc + 30),
    upBursts.map upBurst.ie ++ [⟨broadcastCID, upStop.toNat, EndOfMap, 0⟩]) := ⟨_, rfl⟩
  have hul := s.generate_UL_MAP_eq (symbolsToPSs (LONG_PREAMBLE + 1 + alloc + 30)) hup' (by omega)
  rw [if_pos hlen, ← hupMap] at hul
  have hmany : upMap.2.length ≤ 41 := by
    rw [hupMap]
    simp only [List.length_append, List.length_map, List.length_singleton]
    omega
  obtain ⟨hpos, hmax⟩ := broadcast_le hflag hbody.few hmany
  obtain ⟨first, rest, hadd, hfront, hcount⟩ :=
    hbody.addBroadcast (t := (s.mapped upMap).generate_DL_MAP sorted) rfl hpos hmax
  obtain ⟨tail, hplaced, hdownlink, horigin, hkeep, htail, hlength⟩ := hfront.placed (by omega)
  obtain ⟨placed, hfirst⟩ : ∃ placed, ({ first with stime := 3, duration := first.needs } : downBurst) = placed := ⟨_, rfl⟩
  rw [hfirst] at hplaced hdownlink hlength
  obtain ⟨c, hc⟩ : ∃ c, (((s.mapped upMap).generate_DL_MAP sorted).generate_DL_MAP
    (placed :: tail)).broadcastConnection = c := ⟨_, rfl⟩
  obtain ⟨sents, hmapM, hburst, hsent⟩ := mapM_send (c := c) fun b hb => (hlength b hb).le
  have hshorter : c.GetInformation.1 ≤
      ((s.mapped upMap).generate_DL_MAP sorted).broadcastConnection.GetInformation.1 := by
    rw [← hc]
    refine remapped_le hflag ?_
    rw [List.length_cons]
    omega
  refine ⟨⟨sents, upBursts, symbolsToPSs (LONG_PREAMBLE + 1 + alloc + 30), c⟩, alloc, upStop, _, first, rest, tail,
    ?_, rfl, hfront, ?_, ?_, ?_, horigin, hkeep, hsent, rfl, hup', hle, hshorter, hmax, ?_⟩
  · unfold mapped at hadd hc
    unfold Scheduling
    simp only [hup, hdl, hul, bind, Except.bind, hsorted, hadd, hplaced, hc, hmapM]
    rfl
  · rw [hfirst]
    exact hburst
  · dsimp only
    rw [hburst]
    exact hdownlink
  · intro x hx
    exact hlength _ (hburst ▸ List.mem_map_of_mem hx)
  · dsimp only
    rw [hburst, ← hupMap, ← hc]
    exact remapped_eq hflag

namespace Built

variable {alloc upStop : Int} {len : Nat} {first : downBurst} {rest tail : List downBurst}

/-- The first burst and those behind it. -/
theorem exists_cons (h : s.Built alloc upStop len first rest tail frame) :
    ∃ sent sents, frame.bursts = sent :: sents ∧
      sent.burst = { first with stime := 3, duration := first.needs } ∧ sents.map Sent.burst = tail := by
  have hbursts := h.bursts
  cases hframe : frame.bursts with
  | nil =>
    rw [hframe] at hbursts
    cases hbursts
  | cons sent sents =>
    rw [hframe, List.map_cons] at hbursts
    obtain ⟨hfirst, htail⟩ := List.cons.inj hbursts
    exact ⟨sent, sents, rfl, hfirst, htail⟩

/-- The DL-MAP lists the bursts, and the end of the downlink. -/
theorem listed_eq (h : s.Built alloc upStop len first rest tail frame) :
    listed (frame.bursts.map Sent.burst) = frame.bursts.map (fun sent => sent.burst.ie) ++
      [⟨broadcastCID, EndOfMap, 0, (3 + alloc + first.added).toNat⟩] := by
  have hne : frame.bursts.map Sent.burst ≠ [] := by
    rw [h.bursts]
    exact List.cons_ne_nil _ _
  have hend := endOfMap_of_tiled hne h.downlink
  have hadded := h.front.added
  have hlow := h.downlink.le
  have halloc := h.alloc_le
  have hup := h.uplink.le
  unfold LONG_PREAMBLE DLFP_LEN at hlow
  unfold listed
  rw [if_neg (mt List.length_eq_zero_iff.1 hne), hend, List.nil_append, List.map_map,
    Int.emod_eq_of_lt (by omega) (by omega)]
  rfl

/-- The layout of the frame. -/
theorem layout (h : s.Built alloc upStop len first rest tail frame) :
    ∃ sent sents, s.Layout frame (3 + alloc + first.added) (33 + alloc) upStop sent sents := by
  obtain ⟨sent, sents, hframe, hfirst, htail⟩ := h.exists_cons
  obtain ⟨info, as, hconns, has, -⟩ := h.front.conns
  have hsent : sent ∈ frame.bursts := hframe ▸ List.mem_cons_self
  have hsents : ∀ x ∈ sents, x ∈ frame.bursts := fun x hx => hframe ▸ List.mem_cons_of_mem _ hx
  have hconns' : sent.burst.ConnectionCollection = .new .broadcast len info :: as := by
    rw [hfirst]
    exact hconns
  have hadded : sent.burst.added = first.added := by
    rw [hfirst]
    rfl
  have hle := h.alloc_le
  have hlen := h.len_le
  refine ⟨sent, sents, ?_, h.length, ?_, h.uplink, ?_, hframe, ?_, fun hsmall => ?_, ?_, ?_, ?_⟩
  · have hdown := h.downlink
    rw [List.map_map] at hdown
    exact hdown
  · rw [h.start]
    unfold LONG_PREAMBLE
    congr 1
    omega
  · show 33 + alloc + upStop ≤ 720
    omega
  · rw [hadded]
    omega
  · have hsmaller := hsmall (.new .broadcast len info) (by rw [hconns']; rfl)
    have hadded := h.front.fits (Int.ofNat_lt.1 hsmaller)
    omega
  · exact messages_of_front (h.sends sent hsent) hconns' has h.shorter (by omega)
  · intro x hx
    obtain ⟨d, hd, hsame, -⟩ := h.origin x.burst (htail ▸ List.mem_map_of_mem hx)
    refine messages_of_own (h.sends x (hsents x hx)) ?_
    rw [hsame]
    exact h.front.own d hd
  · rw [h.maps, h.listed_eq]

/-- What the broadcast connection writes. -/
theorem write_broadcast (h : s.Built alloc upStop len first rest tail frame) (info : List Nat) :
    (write frame.broadcastConnection (.new .broadcast len info)).1 =
      frame.broadcastConnection.GetInformation.1 := by
  have hlen := h.len_le
  show ((frame.broadcastConnection.EncapsulateAll (requestLen (.new .broadcast len info))).map
    BroadcastMessage.pdulen).sum = _
  rw [requestLen_new (by omega), BroadcastConnection.EncapsulateAll_all h.shorter]
  rfl

/-- When the demand is met, what is written into each burst fits into it. -/
theorem fits (h : s.Built alloc upStop len first rest tail frame) (hfits : s.demand ≤ 687 - upStop) :
    ∀ x ∈ frame.bursts, (x.written.sum : Int) ≤ x.burst.length := by
  intro x hx
  rw [written_of_send (h.sends x hx)]
  have hmem : x.burst ∈ frame.bursts.map Sent.burst := List.mem_map_of_mem hx
  rw [h.bursts] at hmem
  rcases List.mem_cons.1 hmem with hfirst | htail
  · obtain ⟨info, as, hconns, -, hdone⟩ := h.front.conns
    obtain ⟨hall, hlen⟩ := hdone hfits
    have hshorter := h.shorter
    rw [hfirst]
    dsimp only
    rw [hconns, hlen, List.map_cons, List.sum_cons, sum_write _ hall, h.write_broadcast info]
    omega
  · obtain ⟨d, hd, hsameConns, hsameLength⟩ := h.origin _ htail
    obtain ⟨hall, hlen⟩ := h.front.done hfits d hd
    rw [hsameConns, hsameLength, hlen, sum_write _ hall]

/-- When the demand is met, all that waits is written. -/
theorem sent (h : s.Built alloc upStop len first rest tail frame) (hfits : s.demand ≤ 687 - upStop)
    {conn : BurstConnection} (hwaits : s.Waits conn) : ∃ sent ∈ frame.bursts, ∃ a,
      (a, conn.PduInfo.sum) ∈ sent.burst.ConnectionCollection.zip sent.written ∧ a.conn = conn := by
  obtain ⟨b, hb, a, ha, hconn⟩ := h.front.listed conn hwaits
  have hpos := hwaits.sum_pos
  have hfound : a.Done ∧ ∃ d ∈ frame.bursts.map Sent.burst, d.ConnectionCollection = b.ConnectionCollection := by
    rw [h.bursts]
    rcases List.mem_cons.1 hb with rfl | hb
    · obtain ⟨info, as, hconns, -, hdone⟩ := h.front.conns
      refine ⟨?_, _, List.mem_cons_self, rfl⟩
      rw [hconns] at ha
      rcases List.mem_cons.1 ha with rfl | ha
      · subst hconn
        exact absurd hwaits id
      · exact (hdone hfits).1 a ha
    · obtain ⟨hrest, hlen⟩ := h.front.done hfits b hb
      -- a burst with something to send is not left out
      have hasked : a.pduInfo.sum ≤ total b.ConnectionCollection :=
        List.single_le_sum (fun _ _ => Nat.zero_le _) _ (List.mem_map_of_mem (f := fun a => a.pduInfo.sum) ha)
      rw [(hrest a ha).lists.2, hconn] at hasked
      obtain ⟨d, hd, hsame⟩ := h.keep b hb (by omega)
      exact ⟨hrest a ha, d, List.mem_cons_of_mem _ hd, hsame⟩
  obtain ⟨hdone, d, hd, hsame⟩ := hfound
  obtain ⟨x, hx, rfl⟩ := List.mem_map.1 hd
  refine ⟨x, hx, a, ?_, hconn⟩
  rw [written_of_send (h.sends x hx), ← hconn, ← hdone.lists.2, ← write_of_done frame.broadcastConnection hdone]
  exact mem_zip_map _ (by rw [hsame]; exact ha)

end Built

/-- **A frame.** With at most 40 allocations of the uplink the scheduler returns, and the frame is laid out. -/
theorem Scheduling_frame {upBursts : List upBurst} {available : Int} (hup : s.uplink = .ok (upBursts, available))
    (hlen : upBursts.length ≤ 40) (hflag : s.dlmapflag = true) (coin : Bool) :
    ∃ frame, s.Scheduling coin = .ok frame ∧
      (∃ downStop upStart upStop first rest, s.Layout frame downStop upStart upStop first rest) ∧
      (s.demand ≤ available → s.SendsAll frame) := by
  obtain ⟨frame, alloc, upStop, len, first, rest, tail, hframe, rfl, hbuilt⟩ :=
    Scheduling_built hup hlen hflag coin
  obtain ⟨sent, sents, hlayout⟩ := hbuilt.layout
  exact ⟨frame, hframe, ⟨_, _, _, sent, sents, hlayout⟩,
    fun hfits => ⟨hbuilt.fits hfits, fun conn hwaits => hbuilt.sent hfits hwaits⟩⟩

/-- The uplink of a frame that is returned. -/
theorem uplink_of_Scheduling (h : s.Scheduling coin = .ok frame) :
    ∃ upBursts available, s.uplink = .ok (upBursts, available) ∧ upBursts.length ≤ 40 := by
  unfold Scheduling at h
  cases hup : s.uplink with
  | error e =>
    rw [hup] at h
    cases h
  | ok up =>
    obtain ⟨upBursts, available⟩ := up
    refine ⟨upBursts, available, rfl, ?_⟩
    by_contra hmany
    cases hdl : s.DLScheduling coin available with
    | none =>
      simp only [hup, hdl, bind, Except.bind] at h
      cases h
    | some down =>
      obtain ⟨alloc, bursts⟩ := down
      have hover : s.generate_UL_MAP upBursts (symbolsToPSs (LONG_PREAMBLE + 1 + alloc + 30)) = .error .overrun := by
        unfold generate_UL_MAP
        exact if_neg (by omega)
      simp only [hup, hdl, hover, bind, Except.bind] at h
      cases h

/-- A station with nothing to receive, which is invited to ranging. -/
def polledStation (cid : UInt16) : ssObject := ⟨cid, 1, 5, none, [], []⟩

/-- Eleven stations are polled when the descriptors of both channels are sent. -/
def elevenPolled : PMPBS := { twoProfiles with
  sslist := [1, 2, 3, 4, 5, 6, 7, 8, 9, 10, 11].map polledStation
  PolledList := [1, 2, 3, 4, 5, 6, 7, 8, 9, 10, 11]
  broadcastConnection := ⟨none, none, some ⟨116, by decide, by decide⟩, some ⟨98, by decide, by decide⟩, none⟩ }

set_option maxRecDepth 8000 in
theorem uplink_twoProfiles : twoProfiles.uplink = .ok
    ([⟨2, 1, 0, 5⟩, ⟨broadcastCID, 1, 5, 5⟩, ⟨broadcastCID, 2, 10, 2⟩, ⟨1, 7, 12, 29⟩], 646) := rfl

/-- **What the frame carries** when the downlink has the symbols for all that waits. -/
theorem Scheduling_sends_all {upBursts : List upBurst} {available : Int} (hup : s.uplink = .ok (upBursts, available))
    (hlen : upBursts.length ≤ 40) (hflag : s.dlmapflag = true) (hdemand : s.demand ≤ available) (coin : Bool) :
    ∃ frame, s.Scheduling coin = .ok frame ∧ s.SendsAll frame := by
  obtain ⟨frame, hframe, -, hall⟩ := Scheduling_frame hup hlen hflag coin
  exact ⟨frame, hframe, hall hdemand⟩

/-- The frame for two stations with profiles of their own. -/
theorem Scheduling_sends_all_twoProfiles :
    ∃ frame, twoProfiles.Scheduling true = .ok frame ∧ twoProfiles.SendsAll frame :=
  Scheduling_sends_all uplink_twoProfiles (by decide) rfl (by decide +kernel) true

end PMPBS

end Wimax
