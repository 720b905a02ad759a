import Nctuns.Gprs.ChannelCoding

/-!
# The Viterbi decoder - Proofs

The first pass of `viterbi` computes the least distance of each state. The second pass follows the states
back, and chooses among two predecessors by these distances alone.
-/

namespace Gprs

open BitBuffer Trellis

/-! ## The trellis -/

/-- What a stage can have received: two bits, one of which may be punctured. -/
def Stage (c : UChar × UChar) : Prop :=
  ∃ (sym : Fin 4) (nsym : Fin 3), c = (BitVec.ofNat 8 sym, BitVec.ofNat 8 nsym)

/-- Different bits lead to different states. -/
theorem next_injective (s : Fin 16) : Function.Injective (trellis.next s) := by
  intro b b' h
  revert h
  revert s b b'
  decide

/-- A step costs at most two wrong bits. -/
theorem cost_le (s : Fin 16) (b : Bool) (c : UChar × UChar) : trellis.cost s b c ≤ 2 := by
  simp only [trellis, wrongBits]
  split_ifs <;> omega

/-- From every state one of the two steps is right in the first of the bits sent. -/
theorem exists_cost_le (s : Fin 16) {c : UChar × UChar} (hc : Stage c) :
    ∃ b, trellis.cost s b c ≤ if c.2 = 0 then 1 else 0 := by
  obtain ⟨sym, nsym, rfl⟩ := hc
  revert s sym nsym
  decide +kernel

/-- Every state is reached from every state in four steps. -/
theorem exists_state (s k : Fin 16) : ∃ ms : List Bool, ms.length = 4 ∧ trellis.state s ms = k := by
  have h : ∀ s k : Fin 16, ∃ b₁ b₂ b₃ b₄, trellis.state s [b₁, b₂, b₃, b₄] = k := by decide +kernel
  obtain ⟨b₁, b₂, b₃, b₄, hk⟩ := h s k
  exact ⟨[b₁, b₂, b₃, b₄], rfl, hk⟩

/-- A path costs at most two for each symbol. -/
theorem total_le (s : Fin 16) (ms : List Bool) (cs : List (UChar × UChar)) :
    trellis.total s ms cs ≤ 2 * cs.length := by
  induction ms generalizing s cs with
  | nil => simp [total]
  | cons m ms ih =>
    cases cs with
    | nil => simp [total]
    | cons c cs =>
      have hc := cost_le s m c
      have hrest := ih (trellis.next s m) cs
      simp only [total, List.length_cons]
      omega

/-- The stages of which both bits were sent. -/
def full (cs : List (UChar × UChar)) : Nat := cs.countP fun c => c.2 = 0

/-- Some path costs at most one for each stage of which both bits were sent. -/
theorem exists_total_le (s : Fin 16) {cs : List (UChar × UChar)} (hcs : ∀ c ∈ cs, Stage c) :
    ∃ ms : List Bool, ms.length = cs.length ∧ trellis.total s ms cs ≤ full cs := by
  induction cs generalizing s with
  | nil => exact ⟨[], rfl, by simp [total]⟩
  | cons c cs ih =>
    obtain ⟨b, hb⟩ := exists_cost_le s (hcs c List.mem_cons_self)
    obtain ⟨ms, hlen, hms⟩ := ih (trellis.next s b) fun c' hc' => hcs c' (List.mem_cons_of_mem c hc')
    refine ⟨b :: ms, by simp [hlen], ?_⟩
    unfold full at hms ⊢
    rw [total, List.countP_cons]
    simp only [decide_eq_true_eq]
    omega

/-- A state that can be reached is not far away. -/
theorem best_le_full {cs : List (UChar × UChar)} (hcs : ∀ c ∈ cs, Stage c) (k : Fin 16)
    (hk : trellis.best 0 cs k ≠ ⊤) : trellis.best 0 cs k ≤ (full cs + 8 : ℕ) := by
  rcases Nat.lt_or_ge cs.length 4 with hlt | hge
  · obtain ⟨ms, -, -, hbest⟩ := exists_best hk
    have htotal := total_le 0 ms cs
    rw [hbest]
    exact_mod_cast (by omega : trellis.total 0 ms cs ≤ full cs + 8)
  · obtain ⟨cs, cs₄, rfl, hlen₄⟩ : ∃ cs' cs₄, cs = cs' ++ cs₄ ∧ cs₄.length = 4 :=
      ⟨_, _, (List.take_append_drop (cs.length - 4) cs).symm, by simp; omega⟩
    obtain ⟨ms, hlen, hms⟩ := exists_total_le 0 fun c hc => hcs c (List.mem_append_left cs₄ hc)
    obtain ⟨ms₄, hlen', hstate⟩ := exists_state (trellis.state 0 ms) k
    have hbest : trellis.best 0 (cs ++ cs₄) (trellis.state 0 (ms ++ ms₄)) ≤
        trellis.total 0 (ms ++ ms₄) (cs ++ cs₄) := best_le (by simp [*])
    rw [state_append, hstate, total_append _ hlen] at hbest
    refine hbest.trans ?_
    have h₄ := total_le (trellis.state 0 ms) ms₄ cs₄
    have hfull : full (cs ++ cs₄) = full cs + full cs₄ := List.countP_append
    exact_mod_cast (by omega :
      trellis.total 0 ms cs + trellis.total (trellis.state 0 ms) ms₄ cs₄ ≤ full (cs ++ cs₄) + 8)

/-! ## The first pass -/

/-- What an entry of `metric` stands for. -/
def reading (x : UChar) : ℕ∞ := if x = 0xff then ⊤ else x.toNat

/-- The reading of a metric byte respects the order. -/
theorem reading_mono {x y : UChar} (h : x ≤ y) : reading x ≤ reading y := by
  unfold reading
  split_ifs with hx hy
  · exact le_rfl
  · subst hx
    have hy' : y.toNat ≠ 255 := fun he => hy (BitVec.eq_of_toNat_eq he)
    have hle : 255 ≤ y.toNat := h
    omega
  · exact le_top
  · exact_mod_cast h

/-- The reading of a metric byte respects the strict order. -/
theorem reading_lt {x y : UChar} (h : x < y) : reading x < reading y := by
  have hlt : x.toNat < y.toNat := h
  have hy := y.isLt
  have hx : x ≠ 0xff := by
    rintro rfl
    have hxx : (0xff : UChar).toNat = 255 := rfl
    omega
  unfold reading
  rw [if_neg hx]
  split_ifs
  · exact ENat.natCast_lt_top _
  · exact_mod_cast hlt

/-- Only the byte `0xff` reads as infinite. -/
theorem reading_eq_top {x : UChar} : reading x = ⊤ ↔ x = 0xff := by
  unfold reading
  split_ifs with hx
  · exact ⟨fun _ => hx, fun _ => rfl⟩
  · exact ⟨fun h => absurd h (ENat.natCast_ne_top _), fun h => absurd h hx⟩

/-- A column holds the distances of the states. -/
structure Reads (metric : Column) (f : Fin 16 → ℕ∞) : Prop where
  length : metric.length = STATENO
  reads : ∀ k : Fin 16, reading (metric.getD k 0) = f k

/-- The two bits that a step gives out, as `next_state` has them. -/
def packed (out : Bool × Bool) : UChar := ofBit out.1 ||| ofBit out.2 <<< 1

/-- The table of the steps: there is one for each bit, and it gives out what the generators say. -/
theorem entry_next_state (i j : Fin 16) :
    (entry next_state i j ≥ 0 ↔ ∃ b, trellis.next i b = j) ∧ ∀ b, trellis.next i b = j →
      BitVec.ofInt 8 (entry next_state i j) = packed (generated i b) := by
  revert i j
  decide +kernel

/-- The ones of two bits. -/
def ones (x : UChar) : Nat := (x.getLsbD 0).toNat + (x.getLsbD 1).toNat

/-- On two-bit differences `HammingDist` counts the ones. -/
theorem hammingDist_eq {a b : UChar} (h : (a ^^^ b).toNat < 4) :
    (HammingDist a b).toNat = ones (a ^^^ b) := by
  have hall : ∀ x : Fin 4, (countOnes 8 (BitVec.ofNat 8 x) 0).toNat = ones (BitVec.ofNat 8 x) := by
    decide +kernel
  have hx : BitVec.ofNat 8 (a ^^^ b).toNat = a ^^^ b := BitVec.ofNat_toNat 8 _
  unfold HammingDist
  rw [← hx]
  exact hall ⟨(a ^^^ b).toNat, h⟩

/-- What a step that gives out `out` adds to the distance. -/
def added (sym nsym out : UChar) : Nat :=
  if nsym ≠ 0 then min (HammingDist sym out).toNat (HammingDist (sym ^^^ nsym) out).toNat
  else (HammingDist sym out).toNat

/-- `sym` of a stage, as it was received or changed in the bit that is punctured. -/
def SymOf (c : UChar × UChar) (sym : UChar) : Prop := sym = c.1 ∨ sym = c.1 ^^^ c.2

/-- The symbol with its punctured bits flipped is one of the same symbols. -/
theorem SymOf.change {c : UChar × UChar} {sym : UChar} (h : SymOf c sym) : SymOf c (sym ^^^ c.2) := by
  rcases h with rfl | rfl
  · exact .inr rfl
  · exact .inl (by rw [BitVec.xor_assoc, BitVec.xor_self, BitVec.xor_zero])

/-- The distance the decoder takes for an output is its number of wrong bits. -/
theorem stage_out {c : UChar × UChar} (hc : Stage c) (out : Bool × Bool) {sym : UChar}
    (hsym : SymOf c sym) : (sym ^^^ packed out).toNat < 4 ∧ (sym ^^^ c.2 ^^^ packed out).toNat < 4 ∧
      (if c.2 ≠ 0 then min (ones (sym ^^^ packed out)) (ones (sym ^^^ c.2 ^^^ packed out))
        else ones (sym ^^^ packed out)) = wrongBits c out := by
  obtain ⟨s, n, rfl⟩ := hc
  obtain ⟨changed, rfl⟩ : ∃ changed : Bool, sym = if changed then BitVec.ofNat 8 s ^^^ BitVec.ofNat 8 n
      else BitVec.ofNat 8 s := by
    rcases hsym with rfl | rfl
    · exact ⟨false, rfl⟩
    · exact ⟨true, rfl⟩
  have h : ∀ (s : Fin 4) (n : Fin 3) (b₀ b₁ changed : Bool),
      let c : UChar × UChar := (BitVec.ofNat 8 s, BitVec.ofNat 8 n)
      let sym := if changed then c.1 ^^^ c.2 else c.1
      let out := packed (b₀, b₁)
      (sym ^^^ out).toNat < 4 ∧ (sym ^^^ c.2 ^^^ out).toNat < 4 ∧
        (if c.2 ≠ 0 then min (ones (sym ^^^ out)) (ones (sym ^^^ c.2 ^^^ out)) else ones (sym ^^^ out)) =
          wrongBits c (b₀, b₁) := by decide +kernel
  exact h s n out.1 out.2 changed

/-- This is what it costs, also after `sym` has been changed in the bit that is punctured. -/
theorem added_eq {c : UChar × UChar} (hc : Stage c) (out : Bool × Bool) {sym : UChar}
    (hsym : SymOf c sym) : added sym c.2 (packed out) = wrongBits c out := by
  obtain ⟨hout, hout', heq⟩ := stage_out hc out hsym
  unfold added
  rwa [hammingDist_eq hout, hammingDist_eq hout']

/-- The distance of two symbols is at most two. -/
theorem hammingDist_le {a b : UChar} (h : (a ^^^ b).toNat < 4) : (HammingDist a b).toNat ≤ 2 := by
  rw [hammingDist_eq h, ones]
  have h₀ := Bool.toNat_le ((a ^^^ b).getLsbD 0)
  have h₁ := Bool.toNat_le ((a ^^^ b).getLsbD 1)
  omega

/-- The distance of a step, without overflow. -/
theorem newdist_spec {m sym nsym out : UChar} (hm : m.toNat ≤ 250) (hout : (sym ^^^ out).toNat < 4)
    (hout' : (sym ^^^ nsym ^^^ out).toNat < 4) :
    let newdist := m + HammingDist sym out
    let newdist2 := m + HammingDist (sym ^^^ nsym) out
    let x := if nsym ≠ 0 ∧ newdist2 < newdist then (sym ^^^ nsym, newdist2) else (sym, newdist)
    (x.1 = sym ∨ x.1 = sym ^^^ nsym) ∧ x.2.toNat = m.toNat + added sym nsym out := by
  intro newdist newdist2 x
  have hle := hammingDist_le hout
  have hle' := hammingDist_le hout'
  have hdist : newdist.toNat = m.toNat + (HammingDist sym out).toNat := by
    rw [BitVec.toNat_add, Nat.mod_eq_of_lt (by omega)]
  have hdist' : newdist2.toNat = m.toNat + (HammingDist (sym ^^^ nsym) out).toNat := by
    rw [BitVec.toNat_add, Nat.mod_eq_of_lt (by omega)]
  have hlt : newdist2 < newdist ↔ newdist2.toNat < newdist.toNat := BitVec.lt_def
  unfold added
  by_cases hn : nsym = 0
  · have hx : x = (sym, newdist) := if_neg fun h => h.1 hn
    rw [hx, if_neg (not_not.2 hn)]
    exact ⟨.inl rfl, hdist⟩
  · rw [if_pos hn]
    by_cases h : newdist2 < newdist
    · have hx : x = (sym ^^^ nsym, newdist2) := if_pos ⟨hn, h⟩
      rw [hx]
      refine ⟨.inr rfl, ?_⟩
      have hlt' := hlt.1 h
      change newdist2.toNat = _
      omega
    · have hx : x = (sym, newdist) := if_neg fun hand => h hand.2
      rw [hx]
      refine ⟨.inl rfl, ?_⟩
      have hge := mt hlt.2 h
      change newdist.toNat = _
      omega

/-- After some steps, those in `P`, the next column has the least of what they lead to. -/
structure Partial (f : Fin 16 → ℕ∞) (c : UChar × UChar) (P : Fin 16 → Fin 16 → Prop)
    (x : UChar × Column) : Prop where
  sym : SymOf c x.1
  length : x.2.length = STATENO
  le_iff : ∀ (k : Fin 16) d, d ≤ reading (x.2.getD k 0) ↔
    ∀ i b, trellis.next i b = k → P i k → d ≤ f i + trellis.cost i b c

section FirstPass

variable {metric : Column} {f : Fin 16 → ℕ∞} {c : UChar × UChar} {P Q : Fin 16 → Fin 16 → Prop}
  {x : UChar × Column}

/-- A partial column depends on the steps from finite states only. -/
theorem Partial.congr (h : Partial f c P x) (hPQ : ∀ i k, f i ≠ ⊤ → (P i k ↔ Q i k)) :
    Partial f c Q x := by
  refine ⟨h.sym, h.length, fun k d => ?_⟩
  rw [h.le_iff]
  constructor <;> intro hall i b hk hp
  · by_cases hi : f i = ⊤
    · simp [hi]
    · exact hall i b hk ((hPQ i k hi).2 hp)
  · by_cases hi : f i = ⊤
    · simp [hi]
    · exact hall i b hk ((hPQ i k hi).1 hp)

/-- **Step.** One extension adds its step to the column. -/
theorem Partial.extend (hread : Reads metric f) (hle : ∀ k, f k ≠ ⊤ → f k ≤ (250 : ℕ)) (hc : Stage c)
    {i : Fin 16} (hi : f i ≠ ⊤) (j : Fin 16) (h : Partial f c P x) :
    Partial f c (fun i' k => P i' k ∨ i' = i ∧ k = j) (Gprs.extend metric c.2 x i j) := by
  obtain ⟨sym, next⟩ := x
  obtain ⟨hstep, hout⟩ := entry_next_state i j
  unfold Gprs.extend
  by_cases hent : entry next_state i j ≥ 0
  · obtain ⟨b, hb⟩ := hstep.1 hent
    obtain ⟨hlt, hlt', -⟩ := stage_out hc (generated i b) h.sym
    have hm : metric.getD i 0 ≠ 0xff := fun he => hi ((hread.reads i).symm.trans (reading_eq_top.2 he))
    have hfi : f i = (metric.getD i 0).toNat := by rw [← hread.reads i, reading, if_neg hm]
    have hm250 : (metric.getD i 0).toNat ≤ 250 := by
      have := hle i hi
      rw [hfi] at this
      exact_mod_cast this
    simp only [if_pos hent, hout b hb]
    obtain ⟨hsym', hdist⟩ := newdist_spec hm250 hlt hlt'
    generalize hx : (if c.2 ≠ 0 ∧ metric.getD i 0 + HammingDist (sym ^^^ c.2) (packed (generated i b)) <
        metric.getD i 0 + HammingDist sym (packed (generated i b)) then
        (sym ^^^ c.2, metric.getD i 0 + HammingDist (sym ^^^ c.2) (packed (generated i b)))
      else (sym, metric.getD i 0 + HammingDist sym (packed (generated i b)))) = x at hsym' hdist ⊢
    rw [added_eq hc _ h.sym] at hdist
    have hcost : wrongBits c (generated i b) ≤ 2 := cost_le i b c
    have hnewdist : reading x.2 = f i + trellis.cost i b c := by
      have hne : x.2 ≠ 0xff := by
        intro he
        rw [he] at hdist
        have h255 : (0xff : UChar).toNat = 255 := rfl
        omega
      rw [reading, if_neg hne, hdist, hfi]
      rfl
    have hsteps : ∀ d : ℕ∞, (∀ i' b', trellis.next i' b' = j → P i' j ∨ i' = i ∧ j = j →
        d ≤ f i' + trellis.cost i' b' c) ↔
          (d ≤ reading (next.getD j 0) ∧ d ≤ reading x.2) := by
      intro d
      rw [h.le_iff j d, hnewdist]
      constructor
      · intro hall
        exact ⟨fun i' b' hk hp => hall i' b' hk (.inl hp), hall i b hb (.inr ⟨rfl, rfl⟩)⟩
      · rintro ⟨hall, hd⟩ i' b' hk (hp | ⟨rfl, -⟩)
        · exact hall i' b' hk hp
        · rwa [next_injective i' (hk.trans hb.symm)]
    have hj : (j : ℕ) < next.length := by
      rw [h.length]
      exact j.isLt
    refine ⟨?_, ?_, fun k d => ?_⟩
    · rcases hsym' with hs | hs
      · rw [hs]
        exact h.sym
      · rw [hs]
        exact h.sym.change
    · simp only
      split
      · rw [List.length_set]
        exact h.length
      · exact h.length
    · by_cases hkj : k = j
      · subst hkj
        rw [hsteps d]
        simp only
        split_ifs with hgt
        · rw [List.getD_eq_getElem?_getD, List.getElem?_set_self hj, Option.getD_some]
          exact ⟨fun hd => ⟨hd.trans (reading_lt hgt).le, hd⟩, And.right⟩
        · exact ⟨fun hd => ⟨hd, hd.trans (reading_mono (BitVec.not_lt.1 hgt))⟩, And.left⟩
      · have hkeep : (if next.getD j 0 > x.2 then next.set j x.2 else next).getD k 0 = next.getD k 0 := by
          split
          · rw [List.getD_eq_getElem?_getD, List.getElem?_set_ne (fun he => hkj (Fin.ext he.symm)),
              List.getD_eq_getElem?_getD]
          · rfl
        simp only [hkeep]
        rw [h.le_iff k d]
        constructor
        · rintro hall i' b' hk (hp | ⟨-, he⟩)
          · exact hall i' b' hk hp
          · exact absurd he hkj
        · exact fun hall i' b' hk hp => hall i' b' hk (.inl hp)
  · simp only [if_neg hent]
    refine ⟨h.sym, h.length, fun k d => ?_⟩
    rw [h.le_iff k d]
    constructor
    · rintro hall i' b' hk (hp | ⟨rfl, rfl⟩)
      · exact hall i' b' hk hp
      · exact absurd (hstep.2 ⟨b', hk⟩) hent
    · exact fun hall i' b' hk hp => hall i' b' hk (.inl hp)

/-- Extensions to a list of states add their steps. -/
theorem Partial.foldl_extend (hread : Reads metric f) (hle : ∀ k, f k ≠ ⊤ → f k ≤ (250 : ℕ))
    (hc : Stage c) {i : Fin 16} (hi : f i ≠ ⊤) (js : List ℕ) (hjs : ∀ j ∈ js, j < 16)
    (h : Partial f c P x) :
    Partial f c (fun i' k => P i' k ∨ i' = i ∧ k.val ∈ js)
      (js.foldl (fun x j => Gprs.extend metric c.2 x i j) x) := by
  induction js generalizing P x with
  | nil => exact h.congr fun i' k _ => by simp
  | cons j js ih =>
    have hj := hjs j List.mem_cons_self
    have hstep := h.extend hread hle hc hi ⟨j, hj⟩
    refine (ih (fun j' hj' => hjs j' (List.mem_cons_of_mem j hj')) hstep).congr fun i' k _ => ?_
    simp only [List.mem_cons, Fin.ext_iff]
    tauto

/-- All extensions from one state add its steps. -/
theorem Partial.extendFrom (hread : Reads metric f) (hle : ∀ k, f k ≠ ⊤ → f k ≤ (250 : ℕ))
    (hc : Stage c) (i : Fin 16) (h : Partial f c P x) :
    Partial f c (fun i' k => P i' k ∨ i' = i) (Gprs.extendFrom metric c.2 x i) := by
  unfold Gprs.extendFrom
  have hi : metric.getD i 0 ≠ 0xff ↔ f i ≠ ⊤ := by rw [← hread.reads i, not_iff_not, reading_eq_top]
  split
  · next hm =>
    refine (h.foldl_extend hread hle hc (hi.1 hm) (List.range STATENO) fun j hj =>
      List.mem_range.1 hj).congr fun i' k _ => ?_
    have hk : k.val ∈ List.range STATENO := List.mem_range.2 k.isLt
    tauto
  · next hm =>
    have htop := not_not.1 (mt hi.2 hm)
    refine h.congr fun i' k hne => ?_
    have hii : i' ≠ i := by
      rintro rfl
      exact hne htop
    tauto

/-- **One stage.** Each state of the next column gets the least of what leads to it. -/
theorem advance_spec (hread : Reads metric f) (hle : ∀ k, f k ≠ ⊤ → f k ≤ (250 : ℕ)) (hc : Stage c) :
    (advance metric c).length = STATENO ∧ ∀ (k : Fin 16) d, d ≤ reading ((advance metric c).getD k 0) ↔
      ∀ i b, trellis.next i b = k → d ≤ f i + trellis.cost i b c := by
  have hrows : ∀ n ≤ 16, Partial f c (fun i _ => i.val < n) ((List.range n).foldl
      (Gprs.extendFrom metric c.2) (c.1, List.replicate STATENO 0xff)) := by
    intro n
    induction n with
    | zero =>
      intro _
      refine ⟨.inl rfl, List.length_replicate, fun k d => ?_⟩
      have htop : (List.replicate STATENO (0xff : UChar)).getD k 0 = 0xff := by
        rw [List.getD_eq_getElem?_getD, List.getElem?_replicate_of_lt (show k.val < STATENO from k.isLt), Option.getD_some]
      simp only [List.range_zero, List.foldl_nil, htop, reading_eq_top.2 rfl, le_top, true_iff]
      intro i b _ hi
      exact absurd hi (Nat.not_lt_zero _)
    | succ n ih =>
      intro hn
      rw [List.range_succ, List.foldl_concat]
      refine ((ih (by omega)).extendFrom hread hle hc ⟨n, hn⟩).congr fun i k _ => ?_
      have heq : i = ⟨n, hn⟩ ↔ i.val = n := Fin.ext_iff
      rw [heq]
      omega
  have h := hrows 16 le_rfl
  refine ⟨h.length, fun k d => (h.le_iff k d).trans ?_⟩
  exact ⟨fun hall i b hk => hall i b hk i.isLt, fun hall i b hk _ => hall i b hk⟩

end FirstPass

/-- The column after the stages. -/
def lastColumn (cs : List (UChar × UChar)) : Column := cs.foldl advance column0

/-- What can be received, with distances that fit a byte. -/
structure Receivable (cs : List (UChar × UChar)) : Prop where
  stage : ∀ c ∈ cs, Stage c
  full : full cs ≤ 240

/-- A prefix of a receivable sequence is receivable. -/
theorem Receivable.prefix {cs cs' : List (UChar × UChar)} (h : Receivable (cs ++ cs')) :
    Receivable cs := by
  refine ⟨fun c hc => h.stage c (List.mem_append_left cs' hc), ?_⟩
  have hfull : Gprs.full (cs ++ cs') = Gprs.full cs + Gprs.full cs' := List.countP_append
  have hle := h.full
  omega

/-- The finite metrics stay below the bound of the byte. -/
theorem Receivable.best_le {cs : List (UChar × UChar)} (h : Receivable cs) (k : Fin 16)
    (hk : trellis.best 0 cs k ≠ ⊤) : trellis.best 0 cs k ≤ (250 : ℕ) := by
  refine (best_le_full h.stage k hk).trans ?_
  have hle := h.full
  exact_mod_cast (by omega : Gprs.full cs + 8 ≤ 250)

/-- **The first pass** computes the least distances. -/
theorem lastColumn_reads {cs : List (UChar × UChar)} (h : Receivable cs) :
    Reads (lastColumn cs) (trellis.best 0 cs) := by
  induction cs using List.reverseRecOn with
  | nil =>
    refine ⟨rfl, fun k => ?_⟩
    rw [best_nil]
    have hcol : ∀ k : Fin 16, column0.getD k 0 = if k = 0 then 0 else 0xff := by decide
    rw [lastColumn, List.foldl_nil, hcol k]
    split
    · rfl
    · exact reading_eq_top.2 rfl
  | append_singleton cs c ih =>
    have hread := ih h.prefix
    have hc := h.stage c (List.mem_append_right cs List.mem_cons_self)
    obtain ⟨hlen, hle⟩ := advance_spec hread (fun k hk => h.prefix.best_le k hk) hc
    have hcol : lastColumn (cs ++ [c]) = advance (lastColumn cs) c := List.foldl_concat ..
    refine ⟨hcol ▸ hlen, fun k => eq_of_forall_le_iff fun d => ?_⟩
    rw [hcol, hle k d, le_best_concat_iff]

/-! ## The way back -/

/-- One more symbol adds one column. -/
theorem metrics_concat (cs : List (UChar × UChar)) (c : UChar × UChar) :
    (metrics (cs ++ [c])).reverse = lastColumn (cs ++ [c]) :: (metrics cs).reverse := by
  have hscan : ∀ (cs : List (UChar × UChar)) (m : Column),
      (cs ++ [c]).scanl advance m = cs.scanl advance m ++ [(cs ++ [c]).foldl advance m] := by
    intro cs
    induction cs with
    | nil =>
      intro m
      rfl
    | cons c' cs ih =>
      intro m
      simp only [List.cons_append, List.scanl_cons, ih, List.foldl_cons]
  unfold metrics
  rw [hscan, List.reverse_concat]
  rfl

/-- The columns end in the last one. -/
theorem metrics_head (cs : List (UChar × UChar)) :
    ∃ rest, (metrics cs).reverse = lastColumn cs :: rest := by
  induction cs using List.reverseRecOn with
  | nil => exact ⟨[], rfl⟩
  | append_singleton cs c _ => exact ⟨_, metrics_concat cs c⟩

/-- The loop over the states finds the first of the nearest ones. -/
theorem firstMin_spec {metric : Column} {f : Fin 16 → ℕ∞} (hread : Reads metric f) (cond : ℕ → Prop)
    [DecidablePred cond] (S : Fin 16 → Prop) (hcond : ∀ k : Fin 16, f k ≠ ⊤ → (cond k ↔ S k))
    (hex : ∃ k, S k ∧ f k ≠ ⊤) (start : ℕ) :
    ∃ k : Fin 16, firstMin cond metric start = k ∧ FirstLeast f S k := by
  have hreading : ∀ k : Fin 16, metric.getD k 0 = 0xff ↔ f k = ⊤ := by
    intro k
    rw [← hread.reads k, reading_eq_top]
  have hloop : ∀ n ≤ 16, ∀ x : UChar × ℕ, x = (List.range n).foldl (fun (x : UChar × ℕ) k =>
      if cond k ∧ metric.getD k 0 < x.1 then (metric.getD k 0, k) else x) (0xff, start) →
      (x.1 = 0xff ∧ ∀ k : Fin 16, k.val < n → S k → f k = ⊤) ∨
      ∃ k : Fin 16, x.2 = k ∧ k.val < n ∧ x.1 = metric.getD k 0 ∧ f k ≠ ⊤ ∧ S k ∧
        ∀ k' : Fin 16, k'.val < n → S k' → f k ≤ f k' ∧ (k' < k → f k < f k') := by
    intro n
    induction n with
    | zero =>
      rintro - x rfl
      exact .inl ⟨rfl, fun k hk => absurd hk (Nat.not_lt_zero _)⟩
    | succ n ih =>
      intro hn x hx
      rw [List.range_succ, List.foldl_concat] at hx
      have hprev := ih (by omega) _ rfl
      revert hx hprev
      generalize (List.range n).foldl _ _ = y
      intro hx hprev
      obtain ⟨kn, hkn⟩ : ∃ kn : Fin 16, kn.val = n := ⟨⟨n, hn⟩, rfl⟩
      have hupto : ∀ k' : Fin 16, k'.val < n + 1 → k'.val < n ∨ k' = kn := by
        intro k' hk'
        rcases Nat.lt_or_eq_of_le (Nat.le_of_lt_succ hk') with hlt | heq
        · exact .inl hlt
        · exact .inr (Fin.ext (heq.trans hkn.symm))
      have hself : ∀ k' : Fin 16, k' = kn → f kn ≤ f k' ∧ (k' < kn → f kn < f k') := by
        rintro k' rfl
        exact ⟨le_rfl, fun hlt => absurd hlt (lt_irrefl _)⟩
      by_cases htake : cond n ∧ metric.getD n 0 < y.1
      · -- state `n` is nearer than all before
        rw [if_pos htake] at hx
        obtain ⟨hc, hlt⟩ := htake
        rw [← hkn] at hc hlt hx
        have hne : f kn ≠ ⊤ := by
          intro htop
          rw [(hreading kn).2 htop] at hlt
          have := y.1.isLt
          have h255 : (0xff : UChar).toNat < y.1.toNat := hlt
          change 255 < _ at h255
          omega
        refine .inr ⟨kn, by rw [hx], by omega, by rw [hx], hne, (hcond kn hne).1 hc, fun k' hk' hS => ?_⟩
        rcases hupto k' hk' with hlt' | heq
        · rcases hprev with ⟨-, htop⟩ | ⟨k, -, -, hy, -, -, hleast⟩
          · rw [htop k' hlt' hS]
            exact ⟨le_top, fun _ => lt_top_iff_ne_top.2 hne⟩
          · rw [hy] at hlt
            have hf := reading_lt hlt
            rw [hread.reads, hread.reads] at hf
            have hf' := hf.trans_le (hleast k' hlt' hS).1
            exact ⟨hf'.le, fun _ => hf'⟩
        · exact hself k' heq
      · rw [if_neg htake] at hx
        subst hx
        rw [← hkn] at htake
        rcases hprev with ⟨hx, htop⟩ | ⟨k, hk, hkn', hx, hne, hS, hleast⟩
        · refine .inl ⟨hx, fun k' hk' hS => ?_⟩
          rcases hupto k' hk' with hlt' | rfl
          · exact htop k' hlt' hS
          · by_contra hne
            refine htake ⟨(hcond k' hne).2 hS, ?_⟩
            have hm := mt (hreading k').1 hne
            have hm' : (metric.getD k' 0).toNat ≠ 255 := fun he => hm (BitVec.eq_of_toNat_eq he)
            have := (metric.getD k' 0).isLt
            rw [hx, BitVec.lt_def]
            change _ < 255
            omega
        · refine .inr ⟨k, hk, by omega, hx, hne, hS, fun k' hk' hS' => ?_⟩
          rcases hupto k' hk' with hlt' | rfl
          · exact hleast k' hlt' hS'
          · have hnot : ¬ k' < k := by
              intro hlt
              have : k'.val < k.val := hlt
              omega
            refine ⟨?_, fun hlt => absurd hlt hnot⟩
            by_cases htop : f k' = ⊤
            · rw [htop]
              exact le_top
            · have hge : ¬ metric.getD k' 0 < x.1 := fun hlt => htake ⟨(hcond k' htop).2 hS', hlt⟩
              have hmono := reading_mono (BitVec.not_lt.1 hge)
              rwa [hx, hread.reads, hread.reads] at hmono
  rcases hloop 16 le_rfl _ rfl with ⟨-, htop⟩ | ⟨k, hk, -, -, -, hS, hleast⟩
  · obtain ⟨k, hS, hne⟩ := hex
    exact absurd (htop k k.isLt hS) hne
  · exact ⟨k, hk, hS, fun k' hS' => hleast k' k'.isLt hS'⟩

/-- **The second pass** follows the states back from any that can be reached. -/
theorem selects_spec {cs : List (UChar × UChar)} (h : Receivable cs) (k : Fin 16)
    (hk : trellis.best 0 cs k ≠ ⊤) (l : List ℕ) :
    ∃ ms : List Bool, ms.length = cs.length ∧ trellis.state 0 ms = k ∧
      (∀ i m, ms[i]? = some m → FirstLeast (trellis.best 0 (cs.take i))
        (fun k => ∃ m', trellis.next k m' = trellis.next (trellis.state 0 (ms.take i)) m)
        (trellis.state 0 (ms.take i))) ∧
      selects (metrics cs).reverse k l =
        ((List.range cs.length).map fun i => (trellis.state 0 (ms.take i)).val) ++ k.val :: l := by
  induction cs using List.reverseRecOn generalizing k l with
  | nil =>
    have hk0 : k = 0 := by
      rw [best_nil] at hk
      by_contra hne
      rw [if_neg hne] at hk
      exact hk rfl
    exact ⟨[], rfl, hk0.symm, fun i m hm => by simp at hm, rfl⟩
  | append_singleton cs c ih =>
    obtain ⟨rest, hrest⟩ := metrics_head cs
    -- the survivor of `k`
    have hbefore : ∃ k', (∃ m, trellis.next k' m = k) ∧ trellis.best 0 cs k' ≠ ⊤ := by
      by_contra hno
      push Not at hno
      refine hk (top_le_iff.1 (le_best_concat_iff.2 fun k' m hm => ?_))
      rw [hno k' ⟨m, hm⟩, top_add]
    have hmetric : (lastColumn (cs ++ [c])).getD k 0 ≠ 0xff := fun he =>
      hk (((lastColumn_reads h).reads k).symm.trans (reading_eq_top.2 he))
    obtain ⟨k', hsurv, hleast⟩ := firstMin_spec (lastColumn_reads h.prefix)
      (fun k' => entry next_state k' k ≥ 0) (fun k' => ∃ m, trellis.next k' m = k)
      (fun k' _ => (entry_next_state k' k).1) hbefore 0xff
    obtain ⟨k₀, hS₀, hne₀⟩ := hbefore
    have hne : trellis.best 0 cs k' ≠ ⊤ := ne_top_of_le_ne_top hne₀ (hleast.2 k₀ hS₀).1
    obtain ⟨m, hm⟩ := hleast.1
    obtain ⟨ms, hlen, hstate, hback, hsel⟩ := ih h.prefix k' hne (k.val :: l)
    refine ⟨ms ++ [m], by simp [hlen], by rw [state_concat, hstate, hm], fun i m' hm' => ?_, ?_⟩
    · rcases Nat.lt_or_ge i ms.length with hlt | hge
      · rw [List.getElem?_append_left hlt] at hm'
        rw [List.take_append_of_le_length hlt.le, List.take_append_of_le_length (hlen ▸ hlt.le)]
        exact hback i m' hm'
      · have hi : i = ms.length := by
          have := (List.getElem?_eq_some_iff.1 hm').1
          simp at this
          omega
        subst hi
        rw [List.getElem?_concat_length] at hm'
        obtain rfl := Option.some.inj hm'
        rw [List.take_left, hlen, List.take_left, hstate, hm]
        exact hleast
    · have hsurvivor : survivor (lastColumn cs) (lastColumn (cs ++ [c])) k = k' := by
        unfold survivor
        rw [if_pos hmetric]
        exact hsurv
      rw [metrics_concat, hrest, selects, hsurvivor, ← hrest, hsel, List.length_append,
        List.length_singleton, List.range_succ, List.map_append, List.append_assoc]
      congr 1
      · refine List.map_congr_left fun i hi => ?_
        rw [List.take_append_of_le_length (by rw [hlen]; exact (List.mem_range.1 hi).le)]
      · rw [List.map_singleton, ← hlen, List.take_left, hstate]
        rfl

/-- The map holds the input bit of each step. -/
theorem entry_map (k : Fin 16) (b : Bool) :
    BitVec.ofInt 8 (entry map k (trellis.next k b)) = ofBit b := by
  revert k b
  decide +kernel

/-- **The decoder** writes a message that is followed back from the nearest state. -/
theorem viterbi_spec {symbol data : List UChar} {nbits : ℕ} {nullsym : Option (List UChar)}
    (h : Receivable (stages symbol nbits nullsym)) (hdata : ∀ i, bit data i = false)
    (hlen : nbits / 2 ≤ 8 * data.length) :
    (viterbi symbol nbits nullsym data).1 = 0 ∧
      (viterbi symbol nbits nullsym data).2.length = data.length ∧
      ∃ ms, trellis.Follows 0 ms (stages symbol nbits nullsym) ∧
        ∀ i, bit (viterbi symbol nbits nullsym data).2 i = ms.getD i false := by
  generalize hcs : stages symbol nbits nullsym = cs at h ⊢
  have hlencs : cs.length = nbits / 2 := by rw [← hcs, stages, List.length_map, List.length_range]
  obtain ⟨rest, hrest⟩ := metrics_head cs
  obtain ⟨ms₀, hlen₀, -⟩ := exists_total_le 0 h.stage
  have hreach : trellis.best 0 cs (trellis.state 0 ms₀) ≠ ⊤ :=
    ne_top_of_le_ne_top (ENat.natCast_ne_top _) (best_le hlen₀)
  obtain ⟨k, hk, hleast⟩ := firstMin_spec (lastColumn_reads h)
    (fun i => (lastColumn cs).getD i 0 ≠ 0xff) (fun _ => True)
    (fun k hne => iff_of_true (fun he => hne (((lastColumn_reads h).reads k).symm.trans
      (reading_eq_top.2 he))) trivial) ⟨_, trivial, hreach⟩ STATENO
  have hne : trellis.best 0 cs k ≠ ⊤ := ne_top_of_le_ne_top hreach (hleast.2 _ trivial).1
  obtain ⟨ms, hlenms, hstate, hback, hsel⟩ := selects_spec h k hne []
  have hfollows : trellis.Follows 0 ms cs := ⟨hlenms, hstate ▸ hleast, hback⟩
  -- what is read of `selects`
  have hselect : ∀ i ≤ cs.length, (selects (metrics cs).reverse k []).getD i 0 =
      (trellis.state 0 (ms.take i)).val := by
    intro i hi
    rw [hsel, List.getD_eq_getElem?_getD]
    rcases Nat.lt_or_eq_of_le hi with hlt | rfl
    · rw [List.getElem?_append_left (by simpa using hlt), List.getElem?_map, List.getElem?_range hlt]
      rfl
    · rw [List.getElem?_append_right (by simp), ← hlenms, List.take_length, hstate]
      simp [hlenms]
  have hbit : ∀ i < cs.length, BitVec.ofInt 8 (entry map ((selects (metrics cs).reverse k []).getD i 0)
      ((selects (metrics cs).reverse k []).getD (i + 1) 0)) = ofBit (ms.getD i false) := by
    intro i hi
    have hm : i < ms.length := hlenms ▸ hi
    rw [hselect i hi.le, hselect (i + 1) hi, List.take_add_one, List.getElem?_eq_getElem hm,
      Option.toList_some, state_concat, entry_map, List.getD_eq_getElem?_getD,
      List.getElem?_eq_getElem hm, Option.getD_some]
  -- the loop over the bits
  have hzero : List.replicate (nbits / 2 / 8) 0 ++ data.drop (nbits / 2 / 8) = data := by
    refine BitBuffer.ext (by simp; omega) fun i _ => ?_
    rw [hdata]
    unfold bit
    rw [List.getD_eq_getElem?_getD]
    by_cases hi : i / 8 < nbits / 2 / 8
    · rw [List.getElem?_append_left (by simpa using hi), List.getElem?_replicate_of_lt hi]
      simp
    · rw [List.getElem?_append_right (by simpa using Nat.le_of_not_lt hi), List.getElem?_drop,
        List.length_replicate, Nat.add_sub_cancel' (Nat.le_of_not_lt hi)]
      simpa [bit, List.getD_eq_getElem?_getD] using hdata i
  have hk16 : (k : ℕ) ≠ STATENO := Nat.ne_of_lt k.isLt
  have hv : viterbi symbol nbits nullsym data = (0, (List.range (nbits / 2)).foldl
      (fun data i => put data i (ofBit (ms.getD i false))) data) := by
    have hn : leastState ((metrics cs).reverse.headD []) = k := by
      rw [hrest]
      exact hk
    unfold viterbi
    rw [hcs]
    simp only [hn, if_neg hk16, hzero]
    congr 1
    refine List.foldl_ext _ _ _ fun data' i hi => ?_
    rw [hbit i (hlencs ▸ List.mem_range.1 hi)]
  rw [hv]
  refine ⟨rfl, length_foldl_put _, ms, hfollows, fun i => ?_⟩
  have hplace : ∀ i ∈ List.range (nbits / 2), i / 8 < data.length := by
    intro i hi
    have hi := List.mem_range.1 hi
    omega
  refine (bit_foldl_put (fun i => i) (fun i => ms.getD i false) _ hplace).trans ?_
  rw [hdata, Bool.false_or, Bool.eq_iff_iff, List.any_eq_true]
  simp only [List.mem_range, Bool.and_eq_true, decide_eq_true_eq]
  constructor
  · rintro ⟨i', -, rfl, hm⟩
    exact hm
  · intro hm
    refine ⟨i, ?_, rfl, hm⟩
    by_contra hge
    rw [List.getD_eq_getElem?_getD, List.getElem?_eq_none (by omega)] at hm
    exact absurd hm (by decide)

end Gprs
