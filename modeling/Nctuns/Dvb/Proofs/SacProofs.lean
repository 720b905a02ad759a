import Nctuns.Dvb.Proofs.RcstQueueProofs
import Nctuns.Dvb.Sac
import Nctuns.Lib.Outcome

/-!
# Proofs about capacity requests

A value takes as many fields as `fieldsFor` says, in the SAC as in the budget. The demand fits if the
fields for the rate, at least one, and those for the cells are not too many.
-/

namespace Dvb

open Outcome

variable {s : Sac} {v : UInt32} {type : CapacityRequestType} {channel_id max : UInt8} {n : Nat}

/-! ### Splitting a value -/

/-- The value field holds sixteenths, at most 255. -/
theorem req_value_toNat (v : UInt32) : (req_value v).toNat = min 255 (v.toNat / 16) := by
  have hdiv : (v / 16).toNat = v.toNat / 16 := by rw [UInt32.toNat_div]; rfl
  unfold req_value
  split
  · rename_i hlarge
    have hlarge := UInt32.lt_iff_toNat_lt.1 hlarge
    rw [hdiv] at hlarge
    have h255 : (255 : UInt32).toNat = 255 := rfl
    show 255 = _
    omega
  · rename_i hsmall
    have hsmall := UInt32.le_iff_toNat_le.1 (UInt32.not_lt.1 hsmall)
    rw [hdiv] at hsmall
    have h255 : (255 : UInt32).toNat = 255 := rfl
    rw [UInt32.toNat_toUInt8, hdiv]
    omega

/-- What is left after one field with the factor 16. -/
theorem unscaled_toNat (v : UInt32) :
    (unscaled v).toNat = v.toNat - 16 * min 255 (v.toNat / 16) := by
  have hreq := req_value_toNat v
  have hscaled : ((req_value v).toUInt32 * 16).toNat = 16 * min 255 (v.toNat / 16) := by
    rw [UInt32.toNat_mul, UInt8.toNat_toUInt32, hreq]
    show min 255 (v.toNat / 16) * 16 % 2 ^ 32 = _
    omega
  unfold unscaled
  simp only
  split
  · rename_i hlt
    rw [UInt32.toNat_sub_of_le _ _ (UInt32.le_of_lt hlt), hscaled]
  · rename_i hle
    have hle := UInt32.le_iff_toNat_le.1 (UInt32.not_lt.1 hle)
    rw [hscaled] at hle
    show 0 = _
    omega

/-- A volume up to 255 takes one field. -/
theorem fieldsFor_small {x : Nat} (hpos : 0 < x) (hle : x ≤ 255) : fieldsFor x = 1 := by
  unfold fieldsFor
  split
  · omega
  · split <;> omega

/-- A larger volume takes one field more than what the first leaves. -/
theorem fieldsFor_large {x : Nat} (h : 255 < x) :
    fieldsFor x = fieldsFor (x - 16 * min 255 (x / 16)) + 1 := by
  unfold fieldsFor
  rcases Nat.lt_or_ge x 4080 with hlt | hge
  · have hmin : x - 16 * min 255 (x / 16) = x % 16 := by omega
    rw [hmin]
    split <;> split <;> (try split) <;> (try split) <;> omega
  · have hmin : min 255 (x / 16) = 255 := by omega
    rw [hmin]
    split <;> split <;> (try split) <;> (try split) <;> omega

/-! ### Filling a SAC -/

theorem number_nil (h : s.capacity_requests = []) :
    s.capacity_request_number = Sac.NO_CAPACITY_REQUEST := if_pos h

/-- The number field of a message with requests is one less than their count. -/
theorem number_cons (h : s.capacity_requests ≠ []) (h8 : s.capacity_requests.length ≤ 8) :
    s.capacity_request_number.toNat = s.capacity_requests.length - 1 := by
  unfold Sac.capacity_request_number
  rw [if_neg h, UInt8.toNat_ofNat']
  omega

/-- A message is full at its maximum of requests. -/
theorem isFull_iff (hmax : max.toNat + 1 = n) (hn : n ≤ 8) (hlen : s.capacity_requests.length ≤ n) :
    s.isFull max = true ↔ s.capacity_requests.length = n := by
  unfold Sac.isFull
  rw [decide_eq_true_iff]
  by_cases h : s.capacity_requests = []
  · rw [number_nil h, h]
    constructor
    · rintro ⟨-, hne⟩
      exact absurd rfl hne
    · intro h0
      simp at h0
      omega
  · have hpos := List.length_pos_iff.2 h
    have hnum := number_cons h (by omega)
    have hne : s.capacity_request_number ≠ Sac.NO_CAPACITY_REQUEST := by
      intro he
      rw [he] at hnum
      have h255 : Sac.NO_CAPACITY_REQUEST.toNat = 255 := rfl
      omega
    rw [ge_iff_le, UInt8.le_iff_toNat_le, hnum]
    constructor
    · rintro ⟨hle, -⟩
      omega
    · intro hlen'
      exact ⟨by omega, hne⟩

/-- An addition below eight requests appends one. -/
theorem add_eq (hlen : s.capacity_requests.length < 8) (hid : channel_id ≤ 15) (sc : ScalingFactor)
    (type : CapacityRequestType) (value : UInt8) :
    s.add_capacity_request sc type channel_id value =
      ⟨s.capacity_requests ++ [⟨sc, type, channel_id, value⟩]⟩ := by
  refine if_pos ⟨hid, ?_⟩
  by_cases h : s.capacity_requests = []
  · exact .inl (number_nil h)
  · refine .inr ?_
    have hpos := List.length_pos_iff.2 h
    have hnum := number_cons h (by omega)
    have h7 : (7 : UInt8).toNat = 7 := rfl
    rw [UInt8.lt_iff_toNat_lt, hnum, h7]
    omega

/-- The sum of some requests. -/
def total (rs : List CapacityRequest) : Nat :=
  (rs.map fun r => r.capacity_request_value.toNat * r.scaling_factor.value).sum

/-- What a SAC is filled with: the fields that a value takes, or all that are left. -/
structure Filled (s s' : Sac) (type : CapacityRequestType) (value lost n fields : Nat) : Prop where
  requests : ∃ rs, s'.capacity_requests = s.capacity_requests ++ rs ∧
    (∀ r ∈ rs, r.capacity_request_type = type) ∧ total rs + lost = value ∧
    rs.length = min fields (n - s.capacity_requests.length)
  lost_iff : lost = 0 ↔ s.capacity_requests.length + fields ≤ n

/-- One request for a part `a` of the value, and then the others. -/
theorem Filled.cons {s' : Sac} {r : CapacityRequest} {value lost fields : Nat} (a : Nat)
    (h : Filled ⟨s.capacity_requests ++ [r]⟩ s' type (value - a) lost n fields)
    (hr : r.capacity_request_type = type)
    (ha : r.capacity_request_value.toNat * r.scaling_factor.value = a) (hle : a ≤ value)
    (hroom : s.capacity_requests.length < n) : Filled s s' type value lost n (fields + 1) := by
  obtain ⟨⟨rs, hrs, htype, htotal, hlen⟩, hlost⟩ := h
  simp only [List.length_append, List.length_singleton] at hlen hlost
  refine ⟨⟨r :: rs, by simp [hrs], ?_, ?_, ?_⟩, ?_⟩
  · exact List.forall_mem_cons.2 ⟨hr, htype⟩
  · have hcons : total (r :: rs) = a + total rs := by
      rw [total, List.map_cons, List.sum_cons, ha]
      rfl
    omega
  · rw [List.length_cons]
    omega
  · rw [hlost]
    omega

/-- **Filling.** The loop of `fill_request` ends and files the volume or counts it as lost. -/
theorem fillLoop_spec {fuel : Nat} (hmax : max.toNat + 1 = n) (hn : n ≤ 8) (hid : channel_id ≤ 15)
    (hlen : s.capacity_requests.length ≤ n) (hfuel : v.toNat < fuel) :
    ∃ s' lost, Sac.fillLoop type channel_id max fuel v s = .ok (s', lost) ∧
      Filled s s' type v.toNat lost.toNat n (fieldsFor v.toNat) := by
  induction fuel generalizing s v with
  | zero => omega
  | succ fuel ih =>
    have hzero : (0 : UInt32).toNat = 0 := rfl
    unfold Sac.fillLoop
    by_cases hpos : v > 0
    · have hpos' : 0 < v.toNat := UInt32.lt_iff_toNat_lt.1 hpos
      rw [if_pos hpos]
      by_cases hfull : s.capacity_requests.length = n
      · rw [if_pos ((isFull_iff hmax hn hlen).2 hfull)]
        have hfields : 0 < fieldsFor v.toNat := by
          rcases Nat.lt_or_ge 255 v.toNat with hlarge | hsmall
          · rw [fieldsFor_large hlarge]
            omega
          · rw [fieldsFor_small hpos' hsmall]
            omega
        refine ⟨s, v, rfl, ⟨⟨[], by simp, by simp, by simp [total], by simp; omega⟩, ?_⟩⟩
        omega
      · rw [if_neg (mt (isFull_iff hmax hn hlen).1 hfull)]
        have hroom : s.capacity_requests.length < 8 := by omega
        have h255 : (255 : UInt32).toNat = 255 := rfl
        by_cases hlarge : v > 255
        · have hlarge' := UInt32.lt_iff_toNat_lt.1 hlarge
          rw [h255] at hlarge'
          rw [if_pos hlarge, add_eq hroom hid]
          have hun := unscaled_toNat v
          obtain ⟨s', lost, hrun, hfilled⟩ := @ih
            ⟨s.capacity_requests ++ [⟨.SCALING_FACTOR_16, type, channel_id, req_value v⟩]⟩ (unscaled v)
            (by simp; omega) (by rw [hun]; omega)
          refine ⟨s', lost, hrun, ?_⟩
          rw [fieldsFor_large hlarge', ← hun]
          rw [hun] at hfilled ⊢
          refine hfilled.cons (16 * min 255 (v.toNat / 16)) rfl ?_ (by omega) (by omega)
          show (req_value v).toNat * 16 = _
          rw [req_value_toNat, Nat.mul_comm]
        · have hsmall := UInt32.le_iff_toNat_le.1 (UInt32.not_lt.1 hlarge)
          rw [h255] at hsmall
          rw [if_neg hlarge, add_eq hroom hid]
          obtain ⟨s', lost, hrun, hfilled⟩ := @ih
            ⟨s.capacity_requests ++ [⟨.SCALING_FACTOR_1, type, channel_id, v.toUInt8⟩]⟩ 0
            (by simp; omega) (by rw [hzero]; omega)
          refine ⟨s', lost, hrun, ?_⟩
          rw [hzero] at hfilled
          have hone : fieldsFor v.toNat = fieldsFor 0 + 1 := by
            rw [fieldsFor_small hpos' hsmall]
            rfl
          rw [hone]
          refine Filled.cons v.toNat (by rwa [Nat.sub_self]) rfl ?_ (Nat.le_refl _) (by omega)
          show v.toUInt8.toNat * 1 = _
          rw [UInt32.toNat_toUInt8]
          omega
    · rw [if_neg hpos]
      have hv : v.toNat = 0 := by
        have := mt UInt32.lt_iff_toNat_lt.2 hpos
        omega
      refine ⟨s, 0, rfl, ⟨⟨[], by simp, by simp, by simp [total, hv], ?_⟩, ?_⟩⟩
      · simp [hv, fieldsFor]
      · simp [hv, fieldsFor, hlen]

/-- `fill_req` spends a field on a rate of zero as well. -/
theorem fill_req_spec (hmax : max.toNat + 1 = n) (hn : n ≤ 8) (hid : channel_id ≤ 15)
    (hlen : s.capacity_requests.length ≤ n) (hrbdc : type = .RBDC → s.capacity_requests = []) :
    ∃ s' lost, s.fill_req type v channel_id max = .ok (s', lost) ∧
      Filled s s' type v.toNat lost.toNat n
        (if type = .RBDC then Nat.max 1 (fieldsFor v.toNat) else fieldsFor v.toNat) := by
  have hlt : max < 8 := UInt8.lt_iff_toNat_lt.2 (by show _ < 8; omega)
  unfold Sac.fill_req
  rw [if_neg (not_not.2 hlt)]
  by_cases hzero : v = 0 ∧ type = .RBDC
  · obtain ⟨rfl, rfl⟩ := hzero
    have hnil := hrbdc rfl
    rw [if_pos ⟨rfl, rfl⟩, if_pos rfl, add_eq (by simp [hnil]) hid]
    refine ⟨_, 0, rfl, ⟨⟨[⟨.SCALING_FACTOR_1, .RBDC, channel_id, 0⟩], rfl, by simp, by simp [total], ?_⟩,
      ?_⟩⟩
    · simp [hnil, fieldsFor]
      omega
    · simp [hnil, fieldsFor]
      omega
  · rw [if_neg hzero]
    obtain ⟨s', lost, hrun, hfilled⟩ := @fillLoop_spec s v type channel_id max n (v.toNat + 1) hmax hn
      hid hlen (Nat.lt_succ_self _)
    refine ⟨s', lost, hrun, ?_⟩
    by_cases htype : type = .RBDC
    · have hpos : 0 < v.toNat := by
        refine Nat.pos_of_ne_zero fun h0 => hzero ⟨UInt32.toNat_inj.1 h0, htype⟩
      have hfields : Nat.max 1 (fieldsFor v.toNat) = fieldsFor v.toNat := by
        refine Nat.max_eq_right ?_
        rcases Nat.lt_or_ge 255 v.toNat with hlarge | hsmall
        · rw [fieldsFor_large hlarge]
          omega
        · exact Nat.le_of_eq (fieldsFor_small hpos hsmall).symm
      rw [if_pos htype, hfields]
      exact hfilled
    · rw [if_neg htype]
      exact hfilled

/-- Padding adds requests for nothing. -/
theorem padLoop_spec {fuel : Nat} (hmax : max.toNat + 1 = n) (hn : n ≤ 8)
    (hne : s.capacity_requests ≠ []) (hlen : s.capacity_requests.length ≤ n)
    (hfuel : n - s.capacity_requests.length < fuel) :
    ∃ k, s.padLoop max fuel =
      .ok ⟨s.capacity_requests ++ List.replicate k ⟨.SCALING_FACTOR_1, .VBDC, 0, 0⟩⟩ := by
  induction fuel generalizing s with
  | zero => omega
  | succ fuel ih =>
    have hpos := List.length_pos_iff.2 hne
    have hnum := number_cons hne (by omega)
    unfold Sac.padLoop
    split
    · rename_i hlt
      have hlt := UInt8.lt_iff_toNat_lt.1 hlt
      rw [add_eq (by omega) (by decide)]
      obtain ⟨k, hk⟩ := @ih ⟨s.capacity_requests ++ [⟨.SCALING_FACTOR_1, .VBDC, 0, 0⟩]⟩ (by simp)
        (by simp; omega) (by simp; omega)
      refine ⟨k + 1, ?_⟩
      rw [hk, List.replicate_succ, List.append_assoc]
      rfl
    · exact ⟨0, by simp⟩

/-- Padding appends requests for nothing. -/
theorem pad_dummy_req_spec (hmax : max.toNat + 1 = n) (hn : n ≤ 8)
    (hne : s.capacity_requests ≠ []) (hlen : s.capacity_requests.length ≤ n) :
    ∃ k, s.pad_dummy_req max =
      .ok ⟨s.capacity_requests ++ List.replicate k ⟨.SCALING_FACTOR_1, .VBDC, 0, 0⟩⟩ := by
  have hlt : max < 8 := UInt8.lt_iff_toNat_lt.2 (by show _ < 8; omega)
  have hpos := List.length_pos_iff.2 hne
  have hnum := number_cons hne (by omega)
  have hno : s.capacity_request_number ≠ Sac.NO_CAPACITY_REQUEST := by
    intro he
    rw [he] at hnum
    have h255 : Sac.NO_CAPACITY_REQUEST.toNat = 255 := rfl
    omega
  unfold Sac.pad_dummy_req
  rw [if_neg (not_not.2 hlt), if_neg hno]
  exact padLoop_spec hmax hn hne hlen (by omega)

/-- What a message requests, over an append. -/
theorem requested_append (rs rs' : List CapacityRequest) (p : CapacityRequestType → Bool) :
    Sac.requested ⟨rs ++ rs'⟩ p = Sac.requested ⟨rs⟩ p + Sac.requested ⟨rs'⟩ p := by
  simp [Sac.requested]

/-- When every request is of the type, the message requests their total. -/
theorem requested_all {rs : List CapacityRequest} {p : CapacityRequestType → Bool}
    (h : ∀ r ∈ rs, p r.capacity_request_type = true) : Sac.requested ⟨rs⟩ p = total rs := by
  rw [Sac.requested, List.filter_eq_self.2 h, total]

/-- When no request is of the type, the message requests nothing of it. -/
theorem requested_none {rs : List CapacityRequest} {p : CapacityRequestType → Bool}
    (h : ∀ r ∈ rs, p r.capacity_request_type = false) : Sac.requested ⟨rs⟩ p = 0 := by
  have hnil : rs.filter (fun r => p r.capacity_request_type) = [] :=
    List.filter_eq_nil_iff.2 fun r hr => by simp [h r hr]
  rw [Sac.requested, hnil]
  rfl

/-- The demand fits exactly if the fields of the rate and of the cells are not too many. -/
theorem fits_iff {demand : QueueDemand} (next_request_is_avbdc : Bool) (hmax : max.toNat + 1 = n)
    (hn : n ≤ 8) (hrate : demand.rate.toNat < 2 ^ 32) (hlen : demand.queue_len.toNat < 2 ^ 32) :
    Fits demand next_request_is_avbdc max ↔
      Nat.max 1 (fieldsFor demand.rate.toNat) + fieldsFor demand.queue_len.toNat ≤ n := by
  have hrate' : demand.rate.toUInt32.toNat = demand.rate.toNat := by
    rw [UInt64.toNat_toUInt32]
    exact Nat.mod_eq_of_lt hrate
  have hlen' : demand.queue_len.toUInt32.toNat = demand.queue_len.toNat := by
    rw [UInt64.toNat_toUInt32]
    exact Nat.mod_eq_of_lt hlen
  have htype : (if next_request_is_avbdc then CapacityRequestType.AVBDC else .VBDC) ≠ .RBDC := by
    cases next_request_is_avbdc <;> decide
  obtain ⟨type₂, htype₂⟩ :
      ∃ t, t = (if next_request_is_avbdc then CapacityRequestType.AVBDC else .VBDC) := ⟨_, rfl⟩
  rw [← htype₂] at htype
  obtain ⟨s₁, lost₁, hrun₁, ⟨⟨rs₁, hrs₁, hall₁, htotal₁, hlen₁⟩, hlost₁⟩⟩ :=
    @fill_req_spec Sac.new demand.rate.toUInt32 .RBDC 0 max n hmax hn (by decide) (by simp [Sac.new])
      fun _ => rfl
  rw [if_pos rfl, hrate'] at hlen₁ hlost₁
  rw [hrate'] at htotal₁
  have hnew : Sac.new.capacity_requests = [] := rfl
  rw [hnew, List.nil_append] at hrs₁
  rw [hnew, List.length_nil] at hlen₁ hlost₁
  have hmax1 : 1 ≤ Nat.max 1 (fieldsFor demand.rate.toNat) := Nat.le_max_left _ _
  generalize Nat.max 1 (fieldsFor demand.rate.toNat) = fields at *
  obtain ⟨s₂, lost₂, hrun₂, ⟨⟨rs₂, hrs₂, hall₂, htotal₂, hlen₂⟩, hlost₂⟩⟩ :=
    @fill_req_spec s₁ demand.queue_len.toUInt32 type₂ 0 max n hmax hn (by decide)
      (by rw [hrs₁, hlen₁]; omega) fun h => absurd h htype
  rw [if_neg htype, hlen', hrs₁] at hlen₂ hlost₂
  rw [hlen'] at htotal₂
  have hne : s₂.capacity_requests ≠ [] := by
    rw [hrs₂, hrs₁, ← List.length_pos_iff, List.length_append]
    show 0 < rs₁.length + _
    omega
  obtain ⟨k, hpad⟩ := @pad_dummy_req_spec s₂ max n hmax hn hne (by
    rw [hrs₂, hrs₁, List.length_append]
    omega)
  have hpack : _pack_request_to_sac demand next_request_is_avbdc max =
      .ok (⟨rs₁ ++ rs₂ ++ List.replicate k ⟨.SCALING_FACTOR_1, .VBDC, 0, 0⟩⟩, lost₁, lost₂) := by
    unfold _pack_request_to_sac
    rw [hrun₁, bind_ok]
    simp only
    rw [← htype₂, hrun₂, bind_ok]
    simp only
    rw [hpad, bind_ok, hrs₂, hrs₁]
  have hzero : ∀ {x : UInt32}, x = 0 ↔ x.toNat = 0 := fun {x} => ⟨fun h => h ▸ rfl, fun h =>
    UInt32.toNat_inj.1 h⟩
  unfold Fits
  rw [hpack]
  constructor
  · rintro ⟨sac, heq, -, -⟩
    simp only [Except.ok.injEq, Prod.mk.injEq] at heq
    have h1 := hlost₁.1 (hzero.1 heq.2.1)
    have h2 := hlost₂.1 (hzero.1 heq.2.2)
    omega
  · intro hfits
    have h1 : lost₁ = 0 := hzero.2 (hlost₁.2 (by omega))
    have h2 : lost₂ = 0 := hzero.2 (hlost₂.2 (by omega))
    refine ⟨_, by rw [h1, h2], ?_, ?_⟩
    · rw [requested_append, requested_append, requested_all fun r hr => by simp [hall₁ r hr],
        requested_none fun r hr => by simp [hall₂ r hr, htype],
        requested_none fun r hr => by simp [List.eq_of_mem_replicate hr]]
      rw [h1] at htotal₁
      exact htotal₁
    · rw [requested_append, requested_append, requested_none fun r hr => by simp [hall₁ r hr],
        requested_all fun r hr => by simp [hall₂ r hr, htype],
        requested_all fun r hr => by simp [List.eq_of_mem_replicate hr]]
      rw [h2] at htotal₂
      have hdummy : total (List.replicate k ⟨.SCALING_FACTOR_1, .VBDC, 0, 0⟩) = 0 := by
        simp [total]
      rw [hdummy, Nat.zero_add, Nat.add_zero]
      exact htotal₂

/-! ### The demand of the queues -/

section Demand

open RcstQueueManager

variable {m m' : RcstQueueManager} {q q' : RcstQueue} {amount rate msl spent_rate : UInt32}
  {current_frame : FrameIdent} {lost : Bool}

/-- A computation that ends well has a value with `P`. -/
abbrev Gives {α : Type} (P : α → Prop) (r : Except QueueAbort α) : Prop := Ends (fun _ => True) P r

/-- The rate request of a queue is its rate. -/
theorem rbdcRequire_rate (q : RcstQueue) (amount : UInt32) :
    Gives (fun a => a.2._ncc_config = q._ncc_config ∧
        (amount > 0 → q._ncc_config.spf_to_bps a.1 = rateOf q))
      (q.rbdcRequire amount) := by
  unfold RcstQueue.rbdcRequire
  by_cases hpos : amount > 0
  · rw [if_pos hpos]
    exact Ends.guard (fun _ => trivial) fun _ => ⟨rfl, fun _ => rfl⟩
  · rw [if_neg hpos]
    exact ⟨rfl, fun h => absurd h hpos⟩

/-- A VR-JT queue asks for its rate while there is any left. -/
theorem vrjt_rate (ht : q._queue_type = .VR_JT) :
    Gives (fun a => a.1 = if amount > 0 then rateOf q else 0)
      (q.compute_demand .QD_RATE amount current_frame msl lost) := by
  have hreq := rbdcRequire_rate q amount
  unfold RcstQueue.compute_demand
  rw [ht]
  refine Ends.guard (fun _ => trivial) fun _ => ?_
  unfold RcstQueue.rbdcDemand
  dsimp only
  generalize (if msl > 0 then _ else _) = target
  cases hr : q.rbdcRequire amount with
  | error e => exact trivial
  | ok a =>
    obtain ⟨require, q₁⟩ := a
    rw [hr] at hreq
    obtain ⟨hconfig, hrate⟩ := hreq
    dsimp only [RcstQueue.takeDemand]
    cases q₁._demand with
    | none => exact trivial
    | some demands =>
      refine Ends.guard (fun _ => trivial) fun _ => ?_
      show (if amount > 0 then _ else _) = _
      by_cases hpos : amount > 0
      · rw [if_pos hpos, if_pos hpos, ← hrate hpos, ← hconfig]
        split <;> rfl
      · rw [if_neg hpos, if_neg hpos]

/-- A JT queue asks for its slots, or for those that are left. -/
theorem jt_slots (ht : q._queue_type = .JT) :
    Gives (fun a => a.1.toNat = min (slotsOf lost q).toNat amount.toNat)
      (q.compute_demand .QD_QUEUE_LEN amount current_frame msl lost) := by
  unfold RcstQueue.compute_demand
  rw [ht]
  refine Ends.guard (fun _ => trivial) fun _ => Ends.guard (fun _ => trivial) fun _ => ?_
  have hslots : (if lost then { q.returnDemand q._requested_before_msl with _requested_before_msl := 0 }
      else q)._next_demand_slot = slotsOf lost q := by
    cases lost <;> rfl
  dsimp only
  rw [hslots, ← limit_toNat]
  generalize (if slotsOf lost q > amount then amount else slotsOf lost q) = request
  by_cases hpos : request > 0
  · rw [if_pos hpos]
    split
    · exact trivial
    · exact Ends.guard (fun _ => trivial) fun _ => rfl
  · rw [if_neg hpos]
    exact rfl

/-- The sum of the rates that are asked for. -/
def rates (qs : List RcstQueue) : Nat := (qs.map fun q => (rateOf q).toNat).sum

theorem rates_cons (q : RcstQueue) (qs : List RcstQueue) :
    rates (q :: qs) = (rateOf q).toNat + rates qs := rfl

/-- **Rates.** The loop over the queues requests what they need and no more than is available. -/
theorem computeRates_spec {qs : List RcstQueue} {available required : UInt32}
    (ht : ∀ q ∈ qs, q._queue_type = .VR_JT) (hlt : available.toNat + required.toNat < 2 ^ 32) :
    Gives (fun a => a.1.toNat = min (available.toNat + required.toNat) (required.toNat + rates qs))
      (computeRates current_frame msl qs available required) := by
  induction qs generalizing available required with
  | nil =>
    show required.toNat = min _ (required.toNat + 0)
    omega
  | cons q qs ih =>
    unfold computeRates
    refine (vrjt_rate (ht q List.mem_cons_self)).bind fun a ha => ?_
    obtain ⟨rate, q'⟩ := a
    refine Ends.guard (fun _ => trivial) fun hge => ?_
    have hge := UInt32.le_iff_toNat_le.1 (not_not.1 hge)
    have hsub : (available - rate).toNat = available.toNat - rate.toNat :=
      UInt32.toNat_sub_of_le _ _ (UInt32.le_iff_toNat_le.2 hge)
    have hadd : (required + rate).toNat = required.toNat + rate.toNat := by
      rw [UInt32.toNat_add]
      exact Nat.mod_eq_of_lt (by omega)
    refine (ih (fun r hr => ht r (List.mem_cons_of_mem _ hr)) (by omega)).bind fun b hb => ?_
    show b.1.toNat = _
    rw [hb, hsub, hadd, rates_cons]
    dsimp only at ha
    by_cases hpos : available > 0
    · rw [if_pos hpos] at ha
      rw [ha] at hge ⊢
      omega
    · rw [if_neg hpos] at ha
      -- nothing is left for this queue and the others
      have h0 : ¬ 0 < available.toNat := fun h => hpos (UInt32.lt_iff_toNat_lt.2 h)
      have hrate : rate.toNat = 0 := by
        rw [ha]
        rfl
      omega

/-- Rounding up to units of 2000 bit/s. -/
theorem ceil2000_toNat (x : UInt32) : (ceil2000 x).toNat = (x.toNat + 1999) / 2000 := by
  have hmod : (x % 2000).toNat = x.toNat % 2000 := by
    rw [UInt32.toNat_mod]
    rfl
  have hdiv : (x / 2000).toNat = x.toNat / 2000 := by
    rw [UInt32.toNat_div]
    rfl
  have hlt := x.toNat_lt
  unfold ceil2000
  by_cases h0 : x % 2000 = 0
  · rw [if_pos h0, hdiv]
    rw [h0] at hmod
    have hzero : x.toNat % 2000 = 0 := hmod.symm
    omega
  · rw [if_neg h0, UInt32.toNat_add, hdiv]
    have hne : x.toNat % 2000 ≠ 0 := fun h => h0 (UInt32.toNat_inj.1 (hmod.trans h))
    show (x.toNat / 2000 + 1) % 2 ^ 32 = _
    omega

/-- The number of fields is bounded by the volume. -/
theorem fieldsFor_le (x : Nat) : fieldsFor x ≤ x / 4080 + 2 := by
  unfold fieldsFor
  split
  · omega
  · split <;> omega

/-- The loop that counts the fields of a value ends with their number. -/
theorem sacTaken_spec {fuel : Nat} {value taken : UInt32} (hfuel : value.toNat < fuel)
    (hlt : taken.toNat + fieldsFor value.toNat < 2 ^ 32) :
    Gives (fun a => a.toNat = taken.toNat + fieldsFor value.toNat) (sacTaken fuel value taken) := by
  induction fuel generalizing value taken with
  | zero => omega
  | succ fuel ih =>
    unfold sacTaken
    have h255 : (255 : UInt32).toNat = 255 := rfl
    by_cases hpos : value > 0
    · have hpos' : 0 < value.toNat := UInt32.lt_iff_toNat_lt.1 hpos
      rw [if_pos hpos]
      have hfields : ∃ next : UInt32, (if value > 255 then unscaled value else 0) = next ∧
          next.toNat < value.toNat ∧ fieldsFor value.toNat = fieldsFor next.toNat + 1 := by
        refine ⟨_, rfl, ?_⟩
        by_cases hlarge : value > 255
        · have hlarge' := UInt32.lt_iff_toNat_lt.1 hlarge
          rw [if_pos hlarge, unscaled_toNat]
          exact ⟨by omega, fieldsFor_large (by omega)⟩
        · have hsmall := UInt32.le_iff_toNat_le.1 (UInt32.not_lt.1 hlarge)
          rw [if_neg hlarge, fieldsFor_small hpos' (by omega)]
          exact ⟨hpos', rfl⟩
      obtain ⟨next, hnext, hless, hone⟩ := hfields
      have hsucc : (taken + 1).toNat = taken.toNat + 1 := by
        rw [UInt32.toNat_add]
        show (taken.toNat + 1) % 2 ^ 32 = _
        omega
      rw [hnext]
      refine (ih (by omega) (by omega)).mono (fun _ h => h) fun a ha => ?_
      rw [ha, hsucc, hone]
      omega
    · rw [if_neg hpos]
      have hv : value.toNat = 0 := Nat.eq_zero_of_not_pos fun h => hpos (UInt32.lt_iff_toNat_lt.2 h)
      show taken.toNat = _
      rw [hv]
      rfl

/-- The sum of the slots that are asked for. -/
def slotsWanted (lost : Bool) (qs : List RcstQueue) : Nat := (qs.map fun q => (slotsOf lost q).toNat).sum

theorem slotsWanted_cons (lost : Bool) (q : RcstQueue) (qs : List RcstQueue) :
    slotsWanted lost (q :: qs) = (slotsOf lost q).toNat + slotsWanted lost qs := rfl

/-- **Lengths.** The loop over the jitter-tolerant queues adds the slots they want, as far as they are
    available. -/
theorem computeLengths_spec {qs : List RcstQueue} {per_slot : UInt16} {available : UInt32}
    {queue_len : UInt64} (ht : ∀ q ∈ qs, q._queue_type = .JT)
    (hlt : queue_len.toNat + available.toNat * per_slot.toNat < 2 ^ 32) :
    Gives (fun a => a.1.toNat =
        queue_len.toNat + min available.toNat (slotsWanted lost qs) * per_slot.toNat)
      (computeLengths per_slot current_frame msl lost qs available queue_len) := by
  induction qs generalizing available queue_len with
  | nil =>
    show queue_len.toNat = queue_len.toNat + min _ 0 * _
    rw [Nat.min_zero, Nat.zero_mul, Nat.add_zero]
  | cons q qs ih =>
    unfold computeLengths
    refine (jt_slots (ht q List.mem_cons_self)).bind fun a ha => ?_
    obtain ⟨require, q'⟩ := a
    dsimp only at ha
    refine Ends.guard (fun _ => trivial) fun hge => ?_
    have hge := UInt32.le_iff_toNat_le.1 (not_not.1 hge)
    have hsub : (available - require).toNat = available.toNat - require.toNat :=
      UInt32.toNat_sub_of_le _ _ (UInt32.le_iff_toNat_le.2 hge)
    have hmul := Nat.mul_le_mul_right per_slot.toNat hge
    have hcells : (require * per_slot.toUInt32).toUInt64.toNat = require.toNat * per_slot.toNat := by
      rw [UInt32.toNat_toUInt64, UInt32.toNat_mul, UInt16.toNat_toUInt32]
      exact Nat.mod_eq_of_lt (by omega)
    have hadd : (queue_len + (require * per_slot.toUInt32).toUInt64).toNat =
        queue_len.toNat + require.toNat * per_slot.toNat := by
      rw [UInt64.toNat_add, hcells]
      exact Nat.mod_eq_of_lt (by omega)
    have hleft : (available.toNat - require.toNat) * per_slot.toNat + require.toNat * per_slot.toNat =
        available.toNat * per_slot.toNat := by
      rw [← Nat.add_mul, Nat.sub_add_cancel hge]
    refine (ih (fun r hr => ht r (List.mem_cons_of_mem _ hr)) (by rw [hadd, hsub]; omega)).bind
      fun b hb => ?_
    show b.1.toNat = _
    rw [hb, hadd, hsub, slotsWanted_cons, Nat.add_assoc, ← Nat.add_mul]
    have hslots : require.toNat + min (available.toNat - require.toNat) (slotsWanted lost qs) =
        min available.toNat ((slotsOf lost q).toNat + slotsWanted lost qs) := by
      omega
    rw [hslots]

/-- What the queues ask for, in fields and in cells. -/
theorem demand_spec (hm : m.Typed) {number : UInt8} (hn : number.toNat ≤ 8) (spent_rate : UInt32)
    (current_frame : FrameIdent) (msl : UInt32) :
    Gives (fun a => a.1.rate.toNat = m.waitingRate number.toNat spent_rate ∧
        a.1.queue_len.toNat = m.waitingCells number.toNat spent_rate ∧
        a.1.rate.toNat < 2 ^ 32 ∧ a.1.queue_len.toNat < 2 ^ 32)
      (m.compute_demand_for_vrjt_jt number spent_rate current_frame msl) := by
  have hnumber : number.toUInt32.toNat = number.toNat := UInt8.toNat_toUInt32 _
  have hlimit : (255 * 16 * 2000 * number.toUInt32).toNat = 255 * 16 * 2000 * number.toNat := by
    rw [UInt32.toNat_mul, hnumber]
    show 8160000 * number.toNat % 2 ^ 32 = _
    omega
  unfold compute_demand_for_vrjt_jt
  dsimp only
  refine Ends.guard (fun _ => trivial) fun hspent => ?_
  have hspent := UInt32.le_iff_toNat_le.1 (not_not.1 hspent)
  rw [hlimit] at hspent
  have havailable : (255 * 16 * 2000 * number.toUInt32 - spent_rate).toNat + spent_rate.toNat =
      255 * 16 * 2000 * number.toNat := by
    rw [UInt32.toNat_sub_of_le _ _ (UInt32.le_iff_toNat_le.2 (by rw [hlimit]; exact hspent)), hlimit]
    omega
  refine (computeRates_spec hm.vrjt (by rw [havailable]; omega)).bind fun a ha => ?_
  obtain ⟨required_rate, vrjt⟩ := a
  rw [havailable] at ha
  have hrate : (ceil2000 required_rate).toNat = m.waitingRate number.toNat spent_rate := by
    rw [ceil2000_toNat, ha]
    rfl
  have hvalue : (ceil2000 required_rate).toNat ≤ 32640 := by
    rw [ceil2000_toNat, ha]
    omega
  have hfields := fieldsFor_le (ceil2000 required_rate).toNat
  generalize ceil2000 required_rate = value at *
  dsimp only
  refine (sacTaken_spec (Nat.lt_succ_self _) (by
    show 0 + fieldsFor value.toNat < _
    omega)).bind fun taken htaken => ?_
  have htaken : taken.toNat = fieldsFor value.toNat := htaken.trans (Nat.zero_add _)
  have hleft : ∃ left : UInt32, (if number.toUInt32 > taken then number.toUInt32 - taken else 0) = left ∧
      left.toNat = number.toNat - fieldsFor value.toNat := by
    refine ⟨_, rfl, ?_⟩
    by_cases hgt : number.toUInt32 > taken
    · rw [if_pos hgt, UInt32.toNat_sub_of_le _ _ (UInt32.le_of_lt hgt), hnumber, htaken]
    · have hle := UInt32.le_iff_toNat_le.1 (UInt32.not_lt.1 hgt)
      rw [if_neg hgt]
      show 0 = _
      omega
  obtain ⟨left, hleft_eq, hleft⟩ := hleft
  rw [hleft_eq]
  have hvolume : (left * 255 * 16).toNat = (number.toNat - fieldsFor value.toNat) * 4080 := by
    rw [UInt32.mul_assoc, UInt32.toNat_mul, hleft]
    show _ * 4080 % 2 ^ 32 = _
    omega
  have hslots : (left * 255 * 16 / m._ncc_config.num_of_atm_per_slot.toUInt32).toNat =
      (number.toNat - fieldsFor value.toNat) * 4080 / m._ncc_config.num_of_atm_per_slot.toNat := by
    rw [UInt32.toNat_div, hvolume, UInt16.toNat_toUInt32]
  have hcap := Nat.div_mul_le_self ((number.toNat - fieldsFor value.toNat) * 4080)
    m._ncc_config.num_of_atm_per_slot.toNat
  refine Ends.guard (fun _ => trivial) fun _ => ?_
  refine (computeLengths_spec hm.jt (by
    rw [hslots]
    show 0 + _ < _
    omega)).bind fun b hb => ?_
  obtain ⟨queue_len, jt⟩ := b
  rw [hslots] at hb
  have hb : queue_len.toNat = m.waitingCells number.toNat spent_rate := by
    refine (hb.trans (Nat.zero_add _)).trans ?_
    rw [waitingCells, ← hrate]
    rfl
  refine ⟨?_, hb, ?_, ?_⟩
  · show value.toUInt64.toNat = _
    rw [UInt32.toNat_toUInt64, hrate]
  · show value.toUInt64.toNat < _
    rw [UInt32.toNat_toUInt64]
    omega
  · show queue_len.toNat < _
    have hmin := Nat.mul_le_mul_right m._ncc_config.num_of_atm_per_slot.toNat (Nat.min_le_left
      ((number.toNat - fieldsFor value.toNat) * 4080 / m._ncc_config.num_of_atm_per_slot.toNat)
      (m.jt.map fun q => (slotsOf m._request_lost q).toNat).sum)
    rw [hb, waitingCells, ← hrate]
    omega

/-- **The budget and the SAC.** The demand fits exactly if the rate, which takes a field even when it
    is zero, and the cells do not need more fields than there are. -/
theorem demand_fits_iff {number : UInt8} {demand : QueueDemand} (hm : m.Typed) (h1 : 1 ≤ number)
    (h8 : number ≤ 8)
    (h : m.compute_demand_for_vrjt_jt number spent_rate current_frame msl = .ok (demand, m')) :
    Fits demand m'._next_request_is_avbdc (number - 1) ↔
      Nat.max 1 (fieldsFor (m.waitingRate number.toNat spent_rate)) +
        fieldsFor (m.waitingCells number.toNat spent_rate) ≤ number.toNat := by
  have h1' : 1 ≤ number.toNat := UInt8.le_iff_toNat_le.1 h1
  have h8' : number.toNat ≤ 8 := UInt8.le_iff_toNat_le.1 h8
  have hdemand := demand_spec hm h8' spent_rate current_frame msl
  rw [h] at hdemand
  obtain ⟨hrate, hlen, hrate32, hlen32⟩ := hdemand
  have hmax : (number - 1).toNat + 1 = number.toNat := by
    rw [UInt8.toNat_sub_of_le _ _ h1]
    exact Nat.sub_add_cancel h1'
  rw [fits_iff _ hmax h8' hrate32 hlen32, hrate, hlen]

/-- A demand that was computed comes with the manager after it. -/
theorem exists_of_demand {r : Except QueueAbort (QueueDemand × RcstQueueManager)} {demand : QueueDemand}
    (h : r.toOption.map Prod.fst = some demand) : ∃ m', r = .ok (demand, m') := by
  cases r with
  | error e => cases h
  | ok a =>
    obtain ⟨d, m'⟩ := a
    cases h
    exact ⟨m', rfl⟩

/-- A rate of 8 kbit/s and five cells in two fields. -/
theorem demand_fits_two_fields :
    let config : NccConfig := ⟨1, 4, id, fun slots => slots * 2000⟩
    let vrjt := (RcstQueue.init .VR_JT config 100 0 9 5 0 ⟨0, 0⟩).push 4 true ⟨0, 1⟩
    let jt := (RcstQueue.init .JT config 100 0 0 0 0 ⟨0, 0⟩).push 5 true ⟨0, 1⟩
    let m : RcstQueueManager := ⟨config, [vrjt], [jt], false, false⟩
    ∃ m', m.compute_demand_for_vrjt_jt 2 0 ⟨0, 1⟩ 1 = .ok (⟨4, 5⟩, m') ∧
      Fits ⟨4, 5⟩ m'._next_request_is_avbdc (2 - 1) := by
  intro config vrjt jt m
  have hm : m.Typed := by
    constructor <;> intro q hq <;> rw [List.mem_singleton.1 hq] <;> rfl
  obtain ⟨m', h⟩ : ∃ m', m.compute_demand_for_vrjt_jt 2 0 ⟨0, 1⟩ 1 = .ok (⟨4, 5⟩, m') :=
    exists_of_demand (by decide +kernel)
  exact ⟨m', h, (demand_fits_iff hm (by decide) (by decide) h).2 (by decide)⟩

/-- A cell waits and there is no rate to request: the request for the rate takes the only field. -/
theorem zero_rate_takes_field :
    let config : NccConfig := ⟨1, 4, id, id⟩
    let jt := (RcstQueue.init .JT config 100 0 0 0 0 ⟨0, 0⟩).push 1 true ⟨0, 1⟩
    let m : RcstQueueManager := ⟨config, [], [jt], false, false⟩
    ∃ m', m.compute_demand_for_vrjt_jt 1 0 ⟨0, 1⟩ 1 = .ok (⟨0, 1⟩, m') ∧
      ¬ Fits ⟨0, 1⟩ m'._next_request_is_avbdc (1 - 1) := by
  intro config jt m
  obtain ⟨m', h⟩ : ∃ m', m.compute_demand_for_vrjt_jt 1 0 ⟨0, 1⟩ 1 = .ok (⟨0, 1⟩, m') :=
    exists_of_demand (by decide +kernel)
  refine ⟨m', h, ?_⟩
  rw [fits_iff _ (rfl : (1 - 1 : UInt8).toNat + 1 = 1) (by decide) (by decide) (by decide)]
  decide

end Demand

end Dvb
