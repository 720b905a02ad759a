import Mathlib.Data.List.Count
import Mathlib.Data.List.Nodup

/-!
# Bits of a buffer

A buffer of bytes is read and written bit by bit, the least significant bit of each byte first. `get`
and `put` are the shifts and masks of a program, `bit` says what they mean. `msb` and `toggle` are for
buffers that have the most significant bit first.
-/

namespace BitBuffer

variable {buf : List (BitVec 8)} {i j : Nat}

/-- `(buf[i / 8] >> (i % 8)) & 1`. -/
def get (buf : List (BitVec 8)) (i : Nat) : BitVec 8 := (buf.getD (i / 8) 0 >>> (i % 8)) &&& 1

/-- `buf[j / 8] |= x << (j % 8)`. -/
def put (buf : List (BitVec 8)) (j : Nat) (x : BitVec 8) : List (BitVec 8) :=
  buf.modify (j / 8) (· ||| x <<< (j % 8))

/-- Bit `i` of a buffer. -/
def bit (buf : List (BitVec 8)) (i : Nat) : Bool := (buf.getD (i / 8) 0).getLsbD (i % 8)

/-- A byte that holds a bit. -/
def ofBit (b : Bool) : BitVec 8 := if b then 1 else 0

theorem getLsbD_ofBit (b : Bool) (n : Nat) : (ofBit b).getLsbD n = (decide (n = 0) && b) := by
  cases b <;> simp [ofBit, BitVec.getLsbD_one]

/-- A shifted byte under the mask one is one of its bits. -/
theorem shiftRight_and_one (x : BitVec 8) (n : Nat) : (x >>> n) &&& 1 = ofBit (x.getLsbD n) := by
  apply BitVec.eq_of_getLsbD_eq
  intro k hk
  rw [getLsbD_ofBit]
  by_cases hk0 : k = 0
  · subst hk0
    simp
  · simp [hk0, BitVec.getLsbD_one]

theorem get_eq : get buf i = ofBit (bit buf i) := shiftRight_and_one _ _

@[simp] theorem length_put (buf : List (BitVec 8)) (j : Nat) (x : BitVec 8) :
    (put buf j x).length = buf.length := by simp [put]

/-- `put` sets a bit that is clear. -/
theorem bit_put {b : Bool} (hj : j / 8 < buf.length) :
    bit (put buf j (ofBit b)) i = (bit buf i || (decide (i = j) && b)) := by
  unfold bit put
  by_cases hbyte : i / 8 = j / 8
  · have hi : i / 8 < buf.length := hbyte ▸ hj
    have hmod : i % 8 < 8 := Nat.mod_lt _ (by decide)
    have heq : decide (i = j) = decide (i % 8 = j % 8) := decide_eq_decide.2 (by omega)
    rw [hbyte, List.getD_eq_getElem?_getD, List.getElem?_modify_eq, List.getElem?_eq_getElem hj,
      Option.map_eq_map, Option.map_some, Option.getD_some, List.getD_eq_getElem?_getD, List.getElem?_eq_getElem hj,
      Option.getD_some, BitVec.getLsbD_or, BitVec.getLsbD_shiftLeft, getLsbD_ofBit, heq]
    by_cases hij : i % 8 = j % 8
    · have hmod' : j % 8 < 8 := hij ▸ hmod
      simp [hij, hmod']
    · rcases Nat.lt_or_gt_of_ne hij with hlt | hgt
      · simp [hij, hlt]
      · have hne : i % 8 - j % 8 ≠ 0 := by omega
        simp [hij, hne]
  · have hij : i ≠ j := by
      rintro rfl
      exact hbyte rfl
    rw [List.getD_eq_getElem?_getD, List.getElem?_modify_ne _ _ (Ne.symm hbyte)]
    simp [hij, List.getD_eq_getElem?_getD]

/-- A zeroed buffer has no bit set. -/
theorem bit_of_zero {n : Nat} : bit (List.replicate n 0) i = false := by
  unfold bit
  rw [List.getD_eq_getElem?_getD, List.getElem?_replicate]
  split <;> simp

/-- Bits put to their places, one after another. -/
theorem bit_foldl_put (place : Nat → Nat) (value : Nat → Bool) (is : List Nat)
    (hplace : ∀ k ∈ is, place k / 8 < buf.length) :
    bit (is.foldl (fun buf k => put buf (place k) (ofBit (value k))) buf) i =
      (bit buf i || is.any fun k => decide (i = place k) && value k) := by
  induction is generalizing buf with
  | nil => simp
  | cons k is ih =>
    rw [List.foldl_cons, ih (fun k' hk' => by simpa using hplace k' (List.mem_cons_of_mem k hk')),
      bit_put (hplace k List.mem_cons_self), List.any_cons, Bool.or_assoc]

/-- Many `put`s keep the length. -/
theorem length_foldl_put {place : Nat → Nat} {value : Nat → BitVec 8} (is : List Nat) :
    (is.foldl (fun buf k => put buf (place k) (value k)) buf).length = buf.length := by
  induction is generalizing buf with
  | nil => rfl
  | cons k is ih => rw [List.foldl_cons, ih, length_put]

/-- Bits moved to the places that a one-to-one map gives them. -/
theorem bit_foldl_place (place : Nat → Nat) (value : Nat → Bool) {n : Nat}
    (hplace : ∀ k < n, place k / 8 < buf.length) (hzero : ∀ i, bit buf i = false)
    (hinj : ∀ k < n, ∀ k' < n, place k = place k' → k = k') (hi : i < n) :
    bit ((List.range n).foldl (fun buf k => put buf (place k) (ofBit (value k))) buf) (place i) =
      value i := by
  rw [bit_foldl_put place value _ fun k hk => hplace k (List.mem_range.1 hk), hzero, Bool.false_or,
    Bool.eq_iff_iff, List.any_eq_true]
  simp only [List.mem_range, Bool.and_eq_true, decide_eq_true_eq]
  constructor
  · rintro ⟨k, hk, heq, hv⟩
    rwa [hinj i hi k hk heq]
  · intro hv
    exact ⟨i, hi, rfl, hv⟩

/-- Buffers with the same bits are the same. -/
theorem ext {buf' : List (BitVec 8)} (hlen : buf.length = buf'.length)
    (h : ∀ i < 8 * buf.length, bit buf i = bit buf' i) : buf = buf' := by
  refine List.ext_getElem hlen fun n hn hn' => BitVec.eq_of_getLsbD_eq fun k hk => ?_
  have hbit := h (8 * n + k) (by omega)
  unfold bit at hbit
  rw [show (8 * n + k) / 8 = n by omega, show (8 * n + k) % 8 = k by omega] at hbit
  simpa [List.getD_eq_getElem?_getD, hn, hn'] using hbit

/-! ### The most significant bit first -/

/-- Bit `i` of a buffer. -/
def msb (buf : List (BitVec 8)) (i : Nat) : Bool := (buf.getD (i / 8) 0).getMsbD (i % 8)

/-- `buf[j / 8] ^= 0x80 >> (j % 8)`. -/
def toggle (buf : List (BitVec 8)) (j : Nat) : List (BitVec 8) :=
  buf.modify (j / 8) (· ^^^ ((0x80 : BitVec 8) >>> (j % 8)))

/-- `memset(&buf[start], 0, count)`. -/
def clear (buf : List (BitVec 8)) (start count : Nat) : List (BitVec 8) :=
  buf.take start ++ List.replicate count 0 ++ buf.drop (start + count)

/-- The mask of a bit counted from the top. -/
theorem getMsbD_mask {n k : Nat} (hn : n < 8) (hk : k < 8) :
    ((0x80 : BitVec 8) >>> k).getMsbD n = decide (n = k) := by
  have h : ∀ n < 8, ∀ k < 8, ((0x80 : BitVec 8) >>> k).getMsbD n = decide (n = k) := by decide
  exact h n hn k hk

/-- `x & (0x80 >> k)`. -/
theorem and_mask_ne_zero (x : BitVec 8) {k : Nat} (hk : k < 8) :
    decide (x &&& ((0x80 : BitVec 8) >>> k) ≠ 0) = x.getMsbD k := by
  cases hx : x.getMsbD k with
  | true =>
    refine decide_eq_true fun h => ?_
    have hbit := congrArg (fun y => BitVec.getMsbD y k) h
    rw [BitVec.getMsbD_and, hx, getMsbD_mask hk hk] at hbit
    simp at hbit
  | false =>
    refine decide_eq_false (not_not.2 (BitVec.eq_of_getMsbD_eq fun n hn => ?_))
    rw [BitVec.getMsbD_and, getMsbD_mask hn hk]
    by_cases hnk : n = k
    · rw [hnk, hx]
      simp
    · simp [hnk]

@[simp] theorem length_toggle (buf : List (BitVec 8)) (j : Nat) : (toggle buf j).length = buf.length := by
  simp [toggle]

/-- `toggle` flips one bit. -/
theorem msb_toggle (hj : j / 8 < buf.length) : msb (toggle buf j) i = (msb buf i ^^ decide (i = j)) := by
  unfold msb toggle
  have hmod : i % 8 < 8 := Nat.mod_lt _ (by decide)
  have hmod' : j % 8 < 8 := Nat.mod_lt _ (by decide)
  by_cases hbyte : i / 8 = j / 8
  · have heq : decide (i = j) = decide (i % 8 = j % 8) := decide_eq_decide.2 (by omega)
    rw [hbyte, List.getD_eq_getElem?_getD, List.getElem?_modify_eq, List.getElem?_eq_getElem hj,
      Option.map_eq_map, Option.map_some, Option.getD_some, List.getD_eq_getElem?_getD,
      List.getElem?_eq_getElem hj, Option.getD_some, BitVec.getMsbD_xor, getMsbD_mask hmod hmod', heq]
  · have hij : i ≠ j := by
      rintro rfl
      exact hbyte rfl
    rw [List.getD_eq_getElem?_getD, List.getElem?_modify_ne _ _ (Ne.symm hbyte)]
    simp [hij, List.getD_eq_getElem?_getD]

/-- Many `toggle`s keep the length. -/
theorem length_foldl_toggle (js : List Nat) : (js.foldl toggle buf).length = buf.length := by
  induction js generalizing buf with
  | nil => rfl
  | cons j js ih => rw [List.foldl_cons, ih, length_toggle]

/-- A position stands in a list an odd number of times. -/
def odd (js : List Nat) (i : Nat) : Bool := decide (js.count i % 2 = 1)

/-- A place that occurs an odd number of times occurs. -/
theorem mem_of_odd {js : List Nat} (h : odd js i = true) : i ∈ js := by
  by_contra hi
  rw [odd, List.count_eq_zero_of_not_mem hi] at h
  exact absurd h (by decide)

/-- Without repetition the odd places are those of the list. -/
theorem odd_of_nodup {js : List Nat} (h : js.Nodup) : odd js i = decide (i ∈ js) := by
  by_cases hi : i ∈ js
  · rw [odd, List.count_eq_one_of_mem h hi, decide_eq_true hi]
    rfl
  · rw [odd, List.count_eq_zero_of_not_mem hi, decide_eq_false hi]
    rfl

@[simp] theorem odd_nil : odd [] i = false := by simp [odd]

/-- One place occurs once. -/
@[simp] theorem odd_singleton (j : Nat) : odd [j] i = decide (i = j) := by
  rw [odd_of_nodup (List.nodup_singleton j)]
  simp

/-- Parities add up over an append. -/
theorem odd_append (js js' : List Nat) : odd (js ++ js') i = (odd js i ^^ odd js' i) := by
  unfold odd
  rw [List.count_append, Nat.add_mod]
  rcases Nat.mod_two_eq_zero_or_one (js.count i) with h | h <;>
    rcases Nat.mod_two_eq_zero_or_one (js'.count i) with h' | h' <;> simp [h, h']

/-- Shifted places have shifted parities. -/
theorem odd_map_add (js : List Nat) (k : Nat) : odd (js.map (k + ·)) (k + i) = odd js i := by
  unfold odd
  rw [List.count_map_of_injective _ _ (fun _ _ h => Nat.add_left_cancel h)]

/-- Bits flipped one after another: those flipped an odd number of times are changed. -/
theorem msb_foldl_toggle (js : List Nat) (hjs : ∀ j ∈ js, j / 8 < buf.length) :
    msb (js.foldl toggle buf) i = (msb buf i ^^ odd js i) := by
  unfold odd
  induction js generalizing buf with
  | nil => simp
  | cons j js ih =>
    rw [List.foldl_cons, ih (fun j' hj' => by simpa using hjs j' (List.mem_cons_of_mem j hj')),
      msb_toggle (hjs j List.mem_cons_self), Bool.xor_assoc]
    congr 1
    by_cases hij : i = j
    · subst hij
      rw [List.count_cons_self]
      rcases Nat.mod_two_eq_zero_or_one (js.count i) with h | h <;> simp [h, Nat.add_mod]
    · rw [List.count_cons_of_ne (Ne.symm hij)]
      simp [hij]

/-- Clearing keeps the length. -/
theorem length_clear {start count : Nat} (h : start + count ≤ buf.length) :
    (clear buf start count).length = buf.length := by
  simp only [clear, List.length_append, List.length_take, List.length_replicate, List.length_drop]
  omega

/-- Clearing takes the bits of its bytes away. -/
theorem msb_clear {start count : Nat} (h : start + count ≤ buf.length) :
    msb (clear buf start count) i =
      (decide (i / 8 < start ∨ start + count ≤ i / 8) && msb buf i) := by
  unfold msb clear
  rw [List.getD_eq_getElem?_getD, List.getD_eq_getElem?_getD, List.getElem?_append, List.getElem?_append]
  simp only [List.length_append, List.length_take, List.length_replicate, Nat.min_eq_left (show start ≤
    buf.length by omega), List.getElem?_take, List.getElem?_replicate, List.getElem?_drop]
  by_cases h1 : i / 8 < start
  · simp [h1, show i / 8 < start + count by omega]
  · by_cases h2 : i / 8 < start + count
    · simp [h1, h2, show ¬ start + count ≤ i / 8 by omega, show i / 8 - start < count by omega]
    · simp [h1, h2, show start + count ≤ i / 8 by omega,
        show start + count + (i / 8 - (start + count)) = i / 8 by omega]

/-- Buffers with the same bits are the same. -/
theorem ext_msb {buf' : List (BitVec 8)} (hlen : buf.length = buf'.length)
    (h : ∀ i < 8 * buf.length, msb buf i = msb buf' i) : buf = buf' := by
  refine List.ext_getElem hlen fun n hn hn' => BitVec.eq_of_getMsbD_eq fun k hk => ?_
  have hbit := h (8 * n + k) (by omega)
  unfold msb at hbit
  rw [show (8 * n + k) / 8 = n by omega, show (8 * n + k) % 8 = k by omega] at hbit
  simpa [List.getD_eq_getElem?_getD, hn, hn'] using hbit

/-- Bits that are flipped as often are flipped back. -/
theorem foldl_toggle_cancel {js js' : List Nat} (hjs : ∀ j ∈ js, j / 8 < buf.length)
    (hjs' : ∀ j ∈ js', j / 8 < buf.length) (h : ∀ i, odd js' i = odd js i) :
    js'.foldl toggle (js.foldl toggle buf) = buf := by
  refine ext_msb ?_ fun i _ => ?_
  · rw [length_foldl_toggle, length_foldl_toggle]
  · rw [msb_foldl_toggle _ (by rwa [length_foldl_toggle]), msb_foldl_toggle _ hjs, h, Bool.xor_assoc,
      Bool.xor_self, Bool.xor_false]

end BitBuffer
