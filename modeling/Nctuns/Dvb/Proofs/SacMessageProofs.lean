import Nctuns.Dvb.SacMessage

/-!
# Proofs about SAC messages

Reader and writer advance alike over every field but the M&C message: four bytes of it are written,
where the length and the reader have two.
-/

namespace Dvb

open LittleEndian

/-! ### A request -/

namespace CapacityRequest

variable {r : CapacityRequest}

/-- The low byte of a request. -/
def lowByte (sc : ScalingFactor) (type : CapacityRequestType) (channel_id : UInt8) : UInt16 :=
  (if sc = .SCALING_FACTOR_1 then (0 : UInt16) else 1) ||| ((type.code &&& 7) <<< 1) |||
    ((channel_id.toUInt16 &&& 15) <<< 4)

theorem exists_channel {c : UInt8} (h : c ≤ 15) : ∃ n < 16, c = UInt8.ofNat n :=
  ⟨c.toNat, Nat.lt_succ_of_le h, UInt8.ofNat_toNat.symm⟩

theorem lowByte_lt (sc : ScalingFactor) (type : CapacityRequestType) {channel_id : UInt8}
    (h : channel_id ≤ 15) : (lowByte sc type channel_id).toNat < 256 := by
  have hall : ∀ n < 16, (lowByte sc type (.ofNat n)).toNat < 256 := by
    cases sc <;> cases type <;> decide
  obtain ⟨n, hn, rfl⟩ := exists_channel h
  exact hall n hn

/-- The reader takes the low byte apart. -/
theorem get_lowByte (sc : ScalingFactor) (type : CapacityRequestType) {channel_id : UInt8}
    (value : UInt8) (h : channel_id ≤ 15) :
    get (.ofNat (lowByte sc type channel_id).toNat) value = .ok ⟨sc, type, channel_id, value⟩ := by
  have hall : ∀ n < 16, CapacityRequestType.ofCode
        ((UInt8.ofNat (lowByte sc type (.ofNat n)).toNat >>> 1) &&& 7) = .ok type ∧
      (if UInt8.ofNat (lowByte sc type (.ofNat n)).toNat &&& 0x01 ≠ 0 then
        ScalingFactor.SCALING_FACTOR_16 else .SCALING_FACTOR_1) = sc ∧
      (UInt8.ofNat (lowByte sc type (.ofNat n)).toNat >>> 4) &&& 0x0f = .ofNat n := by
    cases sc <;> cases type <;> decide
  obtain ⟨n, hn, rfl⟩ := exists_channel h
  obtain ⟨htype, hsc, hch⟩ := hall n hn
  rw [get, htype, hsc, hch]
  rfl

theorem put_toNat (h : r.channel_id ≤ 15) :
    r.put.toNat = (lowByte r.scaling_factor r.capacity_request_type r.channel_id).toNat +
      256 * r.capacity_request_value.toNat := by
  have hlow := lowByte_lt r.scaling_factor r.capacity_request_type h
  have hvalue := r.capacity_request_value.toNat_lt
  have hshift : (r.capacity_request_value.toUInt16 <<< 8).toNat =
      r.capacity_request_value.toNat <<< 8 := by
    rw [UInt16.toNat_shiftLeft, UInt8.toNat_toUInt16]
    show r.capacity_request_value.toNat <<< 8 % 2 ^ 16 = _
    rw [Nat.shiftLeft_eq, Nat.mod_eq_of_lt (by omega)]
  show (lowByte r.scaling_factor r.capacity_request_type r.channel_id |||
    (r.capacity_request_value.toUInt16 <<< 8)).toNat = _
  rw [UInt16.toNat_or, hshift, Nat.or_comm, ← Nat.shiftLeft_add_eq_or_of_lt hlow, Nat.shiftLeft_eq]
  omega

/-- The two bytes of a request. -/
theorem bytes_put (h : r.channel_id ≤ 15) : bytes 2 r.put.toNat =
    [.ofNat (lowByte r.scaling_factor r.capacity_request_type r.channel_id).toNat,
      r.capacity_request_value] := by
  have hlow := lowByte_lt r.scaling_factor r.capacity_request_type h
  have hvalue := r.capacity_request_value.toNat_lt
  rw [put_toNat h, bytes, bytes, bytes, Nat.add_mul_div_left _ _ (by decide), Nat.div_eq_of_lt hlow,
    Nat.zero_add, UInt8.ofNat_toNat]
  have hmod : UInt8.ofNat ((lowByte r.scaling_factor r.capacity_request_type r.channel_id).toNat +
      256 * r.capacity_request_value.toNat) =
      .ofNat (lowByte r.scaling_factor r.capacity_request_type r.channel_id).toNat := by
    refine UInt8.toNat_inj.1 ?_
    rw [UInt8.toNat_ofNat', UInt8.toNat_ofNat']
    omega
  rw [hmod]

end CapacityRequest

namespace SacMessage

variable {s : SacMessage} {n k : ℕ} {flag : Bool}

/-! ### Fields -/

theorem look_bytes (h : n < 256 ^ k) (rest : List UInt8) : look k (bytes k n ++ rest) = .ok (n, rest) := by
  rw [look, read_bytes h]

/-- A field that is there is read. -/
theorem lookIf_bytes (h : n < 256 ^ k) (rest : List UInt8) :
    lookIf flag k ((if flag then bytes k n else []) ++ rest) = .ok (if flag then n else 0, rest) := by
  cases flag with
  | false => rfl
  | true => exact look_bytes h rest

/-- A byte of the message. -/
theorem look_one (b : UInt8) (rest : List UInt8) : look 1 (b :: rest) = .ok (b.toNat, rest) := by
  have h := look_bytes (n := b.toNat) (k := 1) b.toNat_lt rest
  rwa [bytes, bytes, UInt8.ofNat_toNat] at h

theorem getRequests_put {rs : List CapacityRequest} (h : ∀ r ∈ rs, r.channel_id ≤ 15)
    (rest : List UInt8) :
    getRequests rs.length ((rs.flatMap fun r => bytes 2 r.put.toNat) ++ rest) = .ok (rs, rest) := by
  induction rs with
  | nil => rfl
  | cons r rs ih =>
    have hr := h r List.mem_cons_self
    rw [List.length_cons, List.flatMap_cons, CapacityRequest.bytes_put hr, getRequests]
    simp only [List.cons_append, List.nil_append, look_one, bind, Except.bind, UInt8.ofNat_toNat,
      CapacityRequest.get_lowByte _ _ _ hr, ih fun r hr => h r (List.mem_cons_of_mem _ hr)]

theorem length_requests (rs : List CapacityRequest) :
    (rs.flatMap fun r => bytes 2 r.put.toNat).length = 2 * rs.length := by
  induction rs with
  | nil => rfl
  | cons r rs ih =>
    rw [List.flatMap_cons, List.length_append, length_bytes, ih, List.length_cons]
    omega

/-- The requests of a message in range are written, and read again. -/
theorem requests_carried (hs : s.InRange) {number : UInt8}
    (hnumber : s.flags.request_flag → number = s.capacity_request_number) :
    ∃ requests, s.putRequests = .ok requests ∧
      requests.length = (if s.flags.request_flag then 2 * s.capacity_requests.length else 0) ∧
      ∀ rest, lookRequests s.flags.request_flag number (requests ++ rest) =
        .ok (if s.flags.request_flag then s.capacity_requests else [], rest) := by
  cases hflag : s.flags.request_flag with
  | false => exact ⟨[], by rw [putRequests, if_pos hflag], rfl, fun rest => rfl⟩
  | true =>
    obtain ⟨-, -, hlen⟩ := hs.requests hflag
    refine ⟨s.capacity_requests.flatMap fun r => bytes 2 r.put.toNat, ?_, ?_, fun rest => ?_⟩
    · rw [putRequests, hflag, if_neg (by decide), if_neg (by omega), hlen, List.take_length]
    · rw [if_pos rfl]
      exact length_requests _
    · rw [lookRequests, if_pos rfl, hnumber hflag, hlen]
      exact getRequests_put hs.channels rest

/-! ### A message -/

theorem lookAcm_put (acm : Acm) :
    lookAcm flag (if flag then [acm.cni, acm.modcod_rq] else []) = .ok (if flag then acm else ⟨0, 0⟩) := by
  cases flag <;> rfl

/-- What is read from a message without an M&C message. -/
theorem ofMessage_bytes {flags : SacFlags} {number : UInt8} (h8 : number < 8)
    (hm : flags.m_and_c_flag = false) (route_id logon_id : UInt16) (group_id : UInt8) (acm : Acm)
    {requests : List UInt8} {rs : List CapacityRequest}
    (hrs : ∀ rest, lookRequests flags.request_flag number (requests ++ rest) = .ok (rs, rest)) :
    ofMessage ((if !flags.route_id_flag then bytes 2 route_id.toNat else []) ++ requests ++ [] ++
        (if flags.group_id_flag then bytes 1 group_id.toNat else []) ++
        (if flags.logon_id_flag then bytes 2 logon_id.toNat else []) ++
        if !flags.acm_flag then [acm.cni, acm.modcod_rq] else []) flags number =
      .ok
        { flags := flags
          capacity_requests := rs
          capacity_request_number := number
          route_id := .ofNat (if !flags.route_id_flag then route_id.toNat else 0)
          group_id := .ofNat (if flags.group_id_flag then group_id.toNat else 0)
          logon_id := .ofNat (if flags.logon_id_flag then logon_id.toNat else 0)
          m_and_c_message := .NO_MESSAGE
          acm := if !flags.acm_flag then acm else ⟨0, 0⟩ } := by
  have hmc : ∀ rest, lookIf flags.m_and_c_flag 2 rest = .ok (0, rest) := by
    intro rest
    rw [hm]
    rfl
  rw [ofMessage, if_neg (not_not.2 h8)]
  simp only [List.append_assoc, List.nil_append, bind, Except.bind, hrs, hmc,
    lookIf_bytes (show route_id.toNat < 256 ^ 2 from route_id.toNat_lt),
    lookIf_bytes (show group_id.toNat < 256 ^ 1 from group_id.toNat_lt),
    lookIf_bytes (show logon_id.toNat < 256 ^ 2 from logon_id.toNat_lt), lookAcm_put,
    MAndCMessageValue.ofCode]

theorem length_of_flag (flag : Bool) (l : List UInt8) :
    (if flag then l else []).length = if flag then l.length else 0 := by
  cases flag <;> rfl

/-- The declared length, in numbers. -/
theorem sac_length_eq (hs : s.InRange) : ∃ length, s.sac_length = .ok length ∧
    length.toNat = (if !s.flags.route_id_flag then 2 else 0) +
      (if s.flags.request_flag then 2 * s.capacity_requests.length else 0) +
      (if s.flags.m_and_c_flag then 2 else 0) + (if s.flags.group_id_flag then 1 else 0) +
      (if s.flags.logon_id_flag then 2 else 0) + if !s.flags.acm_flag then 2 else 0 := by
  have hassert : ¬ (s.flags.request_flag = true ∧ s.capacity_request_number = Sac.NO_CAPACITY_REQUEST) := by
    rintro ⟨hflag, hnumber⟩
    obtain ⟨-, h8, hlen⟩ := hs.requests hflag
    rw [hnumber] at hlen
    have : Sac.NO_CAPACITY_REQUEST.toNat = 255 := rfl
    omega
  have hrequests : (if s.flags.request_flag = true then 2 * (s.capacity_request_number + 1) else 0).toNat =
      if s.flags.request_flag then 2 * s.capacity_requests.length else 0 := by
    split
    · next hflag =>
      obtain ⟨-, h8, hlen⟩ := hs.requests hflag
      have hadd : (s.capacity_request_number + 1).toNat = s.capacity_request_number.toNat + 1 := by
        rw [UInt8.toNat_add]
        exact Nat.mod_eq_of_lt (by have : (1 : UInt8).toNat = 1 := rfl; omega)
      rw [UInt8.toNat_mul, hadd, hlen, show (2 : UInt8).toNat = 2 from rfl]
      exact Nat.mod_eq_of_lt (by omega)
    · rfl
  have hle : (if s.flags.request_flag then 2 * s.capacity_requests.length else 0) ≤ 16 := by
    split
    · next hflag =>
      have := (hs.requests hflag).2.1
      omega
    · exact Nat.zero_le _
  refine ⟨_, by rw [sac_length, if_neg hassert], ?_⟩
  rw [UInt8.toNat_add, UInt8.toNat_add, UInt8.toNat_add, UInt8.toNat_add, UInt8.toNat_add, hrequests]
  generalize (if s.flags.request_flag then 2 * s.capacity_requests.length else 0) = total at hle ⊢
  -- all fields together have at most 25 bytes
  cases s.flags.route_id_flag <;> cases s.flags.m_and_c_flag <;> cases s.flags.group_id_flag <;>
    cases s.flags.logon_id_flag <;> cases s.flags.acm_flag <;> (simp; omega)

/-- What is written is two bytes longer than declared if there is an M&C message. -/
theorem gen_sac_message_eq (hs : s.InRange) : ∃ length message, s.sac_length = .ok length ∧
    s.gen_sac_message = .ok (length, message) ∧
      message.length = length.toNat + if s.flags.m_and_c_flag then 2 else 0 := by
  obtain ⟨length, hlength, hnat⟩ := sac_length_eq hs
  obtain ⟨requests, hput, hrlen, -⟩ := requests_carried hs fun _ => rfl
  refine ⟨length, _, hlength, by rw [gen_sac_message, hlength, hput]; rfl, ?_⟩
  simp only [List.length_append, length_of_flag, length_bytes, hrlen, hnat, List.length_cons,
    List.length_nil]
  cases s.flags.m_and_c_flag with
  | false => simp
  | true =>
    simp
    omega

/-- A message without an M&C message is read as it was written. -/
theorem ofMessage_written (hs : s.InRange) {number : UInt8} (h8 : number < 8)
    (hnumber : s.flags.request_flag → number = s.capacity_request_number)
    (hm : s.flags.m_and_c_flag = false) :
    ∃ length message r, s.gen_sac_message = .ok (length, message) ∧
      ofMessage message s.flags number = .ok r ∧ s.SameFields r := by
  obtain ⟨length, hlength, -⟩ := sac_length_eq hs
  obtain ⟨requests, hput, -, hget⟩ := requests_carried hs hnumber
  have hread := ofMessage_bytes h8 hm s.route_id s.logon_id s.group_id s.acm hget
  refine ⟨length, _, _, ?_, hread, rfl, fun h => ⟨if_pos h, hnumber h⟩, fun h => ?_, fun h => ?_,
    fun h => ?_, fun h => ?_, fun h => ?_⟩
  · rw [gen_sac_message, hlength, hput, hm]
    rfl
  · rw [hm] at h
    cases h
  · show UInt8.ofNat _ = _
    rw [if_pos h, UInt8.ofNat_toNat]
  · show UInt16.ofNat _ = _
    rw [if_pos h, UInt16.ofNat_toNat]
  · show UInt16.ofNat _ = _
    rw [h]
    exact UInt16.ofNat_toNat
  · show (if !s.flags.acm_flag then s.acm else _) = _
    rw [h]
    rfl

/-- **SAC messages.** A message has the declared length and is read as it was written exactly if it is
    without an M&C message and the number of requests that the reader is told is one of eight. -/
theorem carried_iff (s : SacMessage) (hs : s.InRange) (number : UInt8)
    (hnumber : s.flags.request_flag → number = s.capacity_request_number) :
    s.Carried number ↔ s.flags.m_and_c_flag = false ∧ number < 8 := by
  obtain ⟨length, message, hlength, hgen, hlen⟩ := gen_sac_message_eq hs
  constructor
  · rintro ⟨length', message', r, hlength', hgen', hlen', hread, -⟩
    obtain ⟨rfl, rfl⟩ := Prod.mk.inj (Except.ok.inj (hgen.symm.trans hgen'))
    constructor
    · by_contra hm
      rw [if_pos (by simpa using hm)] at hlen
      omega
    · by_contra h8
      rw [ofMessage, if_pos h8] at hread
      cases hread
  · rintro ⟨hm, h8⟩
    obtain ⟨length', message', r, hgen', hread, hsame⟩ := ofMessage_written hs h8 hnumber hm
    obtain ⟨rfl, rfl⟩ := Prod.mk.inj (Except.ok.inj (hgen.symm.trans hgen'))
    rw [hm] at hlen
    exact ⟨length, message, r, hlength, hgen, hlen, hread, hsame⟩

/-- One capacity request and a logon. -/
def oneRequest : SacMessage :=
  { new with
    capacity_requests := [⟨.SCALING_FACTOR_16, .RBDC, 3, 200⟩]
    capacity_request_number := 0
    group_id := 7
    logon_id := 0x1234 }

/-- A message with one request. -/
theorem carried_iff_oneRequest :
    { oneRequest with flags := { oneRequest.flags with m_and_c_flag := false } }.Carried 0 :=
  (carried_iff _ ⟨fun _ => by decide, by decide⟩ 0 fun _ => rfl).2 ⟨rfl, by decide⟩

/-- The M&C message that a new SAC has shifts the group id and all fields behind it. -/
theorem mAndC_shifts : ¬ ∀ s : SacMessage, s.InRange → ∀ number,
    (s.flags.request_flag → number = s.capacity_request_number) → number < 8 → s.Carried number := by
  intro h
  obtain ⟨length, message, r, -, hgen, -, hread, hsame⟩ :=
    h oneRequest ⟨fun _ => by decide, by decide⟩ 0 (fun _ => rfl) (by decide)
  have hgen' : oneRequest.gen_sac_message =
      .ok (11, [0, 0, 0x33, 200, 0, 0, 0, 0, 7, 0x34, 0x12, 0, 0]) := by decide
  obtain ⟨-, rfl⟩ := Prod.mk.inj (Except.ok.inj (hgen'.symm.trans hgen))
  have hgroup : (ofMessage [0, 0, 0x33, 200, 0, 0, 0, 0, 7, 0x34, 0x12, 0, 0] oneRequest.flags 0).map
      group_id = .ok 0 := by decide
  rw [hread] at hgroup
  exact absurd ((Except.ok.inj hgroup).symm.trans (hsame.group_id rfl)) (by decide)

end SacMessage

end Dvb
