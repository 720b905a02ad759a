import Nctuns.Lib.PtrChain
import Mathlib.Data.List.Nodup
import Mathlib.Data.List.Range
import Mathlib.Tactic.Common

/-!
# Trees built level by level

A tree of the vertices that can be reached from a root, in nodes with a parent, a first child and a next
sibling. The siblings of a level are one chain, across the parents: the next level begins with the first
child of the first node of the chain that has one. The children of a node are read from its first child
on, as long as the parent is the node.
-/

namespace LevelTree

variable {α : Type*} {root v w : α} {n m d : ℕ}

/-! ## Hops -/

section Reach

variable {succ : α → List α}

/-- A node that a walk of `n` steps leads to. -/
inductive Reach (succ : α → List α) (root : α) : ℕ → α → Prop
  | refl : Reach succ root 0 root
  | tail {n : ℕ} {v w : α} (h : Reach succ root n v) (hw : w ∈ succ v) : Reach succ root (n + 1) w

/-- Two walks one behind the other. -/
theorem Reach.trans (h : Reach succ root m v) (h' : Reach succ v n w) : Reach succ root (m + n) w := by
  induction h' with
  | refl => exact h
  | tail _ hw ih => exact .tail ih hw

/-- The vertex can be reached in `d` hops and not in fewer. -/
def HopDist (succ : α → List α) (root : α) (d : ℕ) (v : α) : Prop :=
  Reach succ root d v ∧ ∀ n, Reach succ root n v → d ≤ n

theorem HopDist.unique (h : HopDist succ root d v) (h' : HopDist succ root n v) : d = n :=
  Nat.le_antisymm (h.2 n h'.1) (h'.2 d h.1)

/-- Who is reached has a distance. -/
theorem Reach.hopDist (h : Reach succ root n v) : ∃ d ≤ n, HopDist succ root d v := by
  induction n using Nat.strong_induction_on with
  | _ n ih =>
    by_cases hmin : ∃ m < n, Reach succ root m v
    · obtain ⟨m, hm, hr⟩ := hmin
      obtain ⟨d, hd, hv⟩ := ih m hm hr
      exact ⟨d, by omega, hv⟩
    · refine ⟨n, Nat.le_refl n, h, ?_⟩
      intro m hr
      by_contra hlt
      exact hmin ⟨m, by omega, hr⟩

end Reach

/-! ## The nodes -/

/-- Nodes are numbered in the order of their allocation; `used` are their vertices. -/
structure Arena (α : Type*) where
  size : ℕ
  parent : ℕ → Option ℕ
  child : ℕ → Option ℕ
  sibling : ℕ → Option ℕ
  id : ℕ → α
  used : List α

namespace Arena

variable [DecidableEq α]

/-- A tree of the root alone. -/
def single (root : α) : Arena α where
  size := 1
  parent _ := none
  child _ := none
  sibling _ := none
  id _ := root
  used := [root]

/-- A child of the root, in front of the others. -/
def addFirst (a : Arena α) (v : α) : Arena α :=
  if v ∈ a.used then a
  else {
    size := a.size + 1
    parent := Function.update a.parent a.size (some 0)
    child := Function.update (Function.update a.child a.size none) 0 (some a.size)
    sibling := Function.update a.sibling a.size (a.child 0)
    id := Function.update a.id a.size v
    used := v :: a.used }

/-- A child of `p` behind the last node of its level. -/
def add (p : ℕ) (s : Arena α × Option ℕ) (v : α) : Arena α × Option ℕ :=
  if v ∈ s.1.used then s
  else
    let child := Function.update s.1.child s.1.size none
    let sibling := Function.update s.1.sibling s.1.size none
    ({ size := s.1.size + 1
       parent := Function.update s.1.parent s.1.size (some p)
       child := if child p = none then Function.update child p (some s.1.size) else child
       sibling :=
        match s.2 with
        | none => sibling
        | some last => Function.update sibling last (some s.1.size)
       id := Function.update s.1.id s.1.size v
       used := v :: s.1.used },
      some s.1.size)

variable (lists : α → List α)

/-- The children of a node and of those behind it in its level. -/
def level : ℕ → Arena α × Option ℕ → Option ℕ → Option (Arena α × Option ℕ)
  | _, s, none => some s
  | 0, _, some _ => none
  | n + 1, s, some p =>
    let s := (lists (s.1.id p)).foldl (add p) s
    level n s (s.1.sibling p)

/-- The first child of a node or of one behind it. -/
def firstChild (a : Arena α) : ℕ → ℕ → Option (Option ℕ)
  | 0, _ => none
  | n + 1, p =>
    match a.child p with
    | some c => some (some c)
    | none =>
      match a.sibling p with
      | none => some none
      | some q => firstChild a n q

/-- All levels from one on. -/
def levels (fuel : ℕ) : ℕ → Arena α → Option ℕ → Option (Arena α)
  | _, a, none => some a
  | 0, _, some _ => none
  | n + 1, a, some t =>
    (level lists fuel (a, none) (some t)).bind fun s =>
    (s.1.parent t).bind fun p =>
    (s.1.child p).bind fun q =>
    (s.1.firstChild fuel q).bind fun next =>
    levels fuel n s.1 next

/-- The tree of the root, next to which are the vertices `next`. -/
def build (next : List α) (fuel : ℕ) (root : α) : Option (Arena α) :=
  let a := next.foldl addFirst (single root)
  levels lists fuel fuel a (a.child 0)

/-! ## Reading the tree -/

/-- The children of `p` from a node on, at most `n` of them. -/
def kids (a : Arena α) (p : ℕ) : ℕ → Option ℕ → List ℕ
  | 0, _ => []
  | _ + 1, none => []
  | n + 1, some c => if a.parent c = some p then c :: kids a p n (a.sibling c) else []

/-- The nodes below a node with their depths, in preorder. -/
def preorder (a : Arena α) (fuel : ℕ) : ℕ → ℕ → ℕ → List (ℕ × ℕ)
  | 0, _, _ => []
  | n + 1, i, d => (i, d) :: (a.kids i fuel (a.child i)).flatMap fun c => preorder a fuel n c (d + 1)

/-! ## One level -/

variable {lists} {succ : α → List α} {a a₀ : Arena α} {s : Arena α × Option ℕ} {p q : ℕ} {q' : Option ℕ} {ks : List ℕ} {bs : List (ℕ × List ℕ)}
  {v : α}

open PtrChain

theorem add_of_mem (h : v ∈ s.1.used) : add p s v = s := if_pos h

theorem size_add (h : v ∉ s.1.used) : (add p s v).1.size = s.1.size + 1 := by
  unfold add
  rw [if_neg h]

theorem parent_add (h : v ∉ s.1.used) :
    (add p s v).1.parent = Function.update s.1.parent s.1.size (some p) := by
  unfold add
  rw [if_neg h]

theorem id_add (h : v ∉ s.1.used) : (add p s v).1.id = Function.update s.1.id s.1.size v := by
  unfold add
  rw [if_neg h]

theorem last_add (h : v ∉ s.1.used) : (add p s v).2 = some s.1.size := by
  unfold add
  rw [if_neg h]

theorem used_add (h : v ∉ s.1.used) : (add p s v).1.used = v :: s.1.used := by
  unfold add
  rw [if_neg h]

/-- The chain of the level is continued at its last node. -/
theorem sibling_add (h : v ∉ s.1.used) : (add p s v).1.sibling =
    match s.2 with
    | none => Function.update s.1.sibling s.1.size none
    | some last => Function.update (Function.update s.1.sibling s.1.size none) last (some s.1.size) := by
  unfold add
  rw [if_neg h]

theorem id_add_of_lt {i : ℕ} (h : v ∉ s.1.used) (hi : i < s.1.size) : (add p s v).1.id i = s.1.id i := by
  rw [id_add h, Function.update_of_ne (Nat.ne_of_lt hi)]

theorem id_add_self (h : v ∉ s.1.used) : (add p s v).1.id s.1.size = v := by
  rw [id_add h, Function.update_self]

/-- While the level whose first nodes are those of `bs` is read, each with the children it has got. -/
structure Mid (succ : α → List α) (a₀ : Arena α) (bs : List (ℕ × List ℕ)) (s : Arena α × Option ℕ) :
    Prop where
  size_le : a₀.size ≤ s.1.size
  old : ∀ i < a₀.size,
    s.1.parent i = a₀.parent i ∧ s.1.sibling i = a₀.sibling i ∧ s.1.id i = a₀.id i
  untouched : ∀ i < a₀.size, i ∉ bs.map Prod.fst → s.1.child i = a₀.child i
  new : bs.flatMap Prod.snd = List.range' a₀.size (s.1.size - a₀.size)
  block : ∀ b ∈ bs, b.1 < a₀.size ∧ s.1.child b.1 = b.2.head? ∧
    ∀ k ∈ b.2, s.1.parent k = some b.1 ∧ s.1.id k ∈ succ (a₀.id b.1)
  chain : IsChain s.1.sibling (bs.flatMap Prod.snd).head? (bs.flatMap Prod.snd)
  last : s.2 = (bs.flatMap Prod.snd).getLast?
  fresh : ∀ k, a₀.size ≤ k → k < s.1.size → s.1.child k = none ∧ s.1.id k ∉ a₀.used
  used : ∀ w, w ∈ s.1.used ↔ ∃ i < s.1.size, s.1.id i = w
  inj : ∀ i < s.1.size, ∀ j < s.1.size, s.1.id i = s.1.id j → i = j
  earliest : bs.Pairwise fun b b' => ∀ k ∈ b'.2, s.1.id k ∉ succ (a₀.id b.1)

namespace Mid

omit [DecidableEq α] in
/-- The children of the nodes that are done are the nodes that are new. -/
theorem mem_new (h : Mid succ a₀ bs s) (k : ℕ) :
    k ∈ bs.flatMap Prod.snd ↔ a₀.size ≤ k ∧ k < s.1.size := by
  have hle := h.size_le
  rw [h.new, List.mem_range'_1]
  omega

omit [DecidableEq α] in
/-- What is in the tree stays in it. -/
theorem used_mono (h : Mid succ a₀ bs s) (hused : ∀ w, w ∈ a₀.used ↔ ∃ i < a₀.size, a₀.id i = w) :
    ∀ w ∈ a₀.used, w ∈ s.1.used := by
  intro w hw
  obtain ⟨i, hi, rfl⟩ := (hused w).1 hw
  exact (h.used _).2 ⟨i, Nat.lt_of_lt_of_le hi h.size_le, (h.old i hi).2.2⟩

omit [DecidableEq α] in
/-- The next number is that of no child. -/
theorem size_not_mem (h : Mid succ a₀ bs s) : s.1.size ∉ bs.flatMap Prod.snd := by
  rw [h.mem_new]
  omega

omit [DecidableEq α] in
theorem lt_of_last (h : Mid succ a₀ (bs ++ [(p, ks)]) s) : p < a₀.size := (h.block (p, ks) (by simp)).1

/-- A new child is the first one of a node without children, and changes no other node's first child. -/
theorem child_add (h : Mid succ a₀ (bs ++ [(p, ks)]) s) (hnew : v ∉ s.1.used) :
    (add p s v).1.child = Function.update (Function.update s.1.child s.1.size none) p
      (ks ++ [s.1.size]).head? := by
  have hps : p ≠ s.1.size := Nat.ne_of_lt (Nat.lt_of_lt_of_le h.lt_of_last h.size_le)
  have hkids : s.1.child p = ks.head? := (h.block (p, ks) (by simp)).2.1
  unfold add
  rw [if_neg hnew]
  dsimp only
  rw [Function.update_of_ne hps, hkids]
  cases ks with
  | nil => rfl
  | cons k ks =>
    rw [if_neg (by simp)]
    funext i
    by_cases hi : i = p
    · subst hi
      rw [Function.update_of_ne hps, Function.update_self, hkids]
      rfl
    · rw [Function.update_of_ne hi]

/-- The new node is behind the last one of the chain. -/
theorem chain_add (h : Mid succ a₀ bs s) (hnew : v ∉ s.1.used) :
    IsChain (add p s v).1.sibling (bs.flatMap Prod.snd ++ [s.1.size]).head?
      (bs.flatMap Prod.snd ++ [s.1.size]) := by
  have hnot := h.size_not_mem
  have hbefore := h.chain.update (q := none) hnot
  rw [sibling_add hnew, h.last]
  rcases List.eq_nil_or_concat (bs.flatMap Prod.snd) with hnil | ⟨pre, x, hcat⟩
  · rw [hnil]
    exact ⟨rfl, Function.update_self _ _ _⟩
  · rw [List.concat_eq_append] at hcat
    rw [hcat] at hbefore hnot ⊢
    rw [List.getLast?_concat]
    have hhead : (pre ++ [x] ++ [s.1.size]).head? = (pre ++ [x]).head? := by
      cases pre <;> rfl
    rw [hhead, List.append_assoc]
    exact hbefore.snoc hnot (Function.update_self _ _ _)

/-- The siblings of the old nodes stay. -/
theorem sibling_add_of_lt (h : Mid succ a₀ bs s) (hnew : v ∉ s.1.used) {i : ℕ} (hi : i < a₀.size) :
    (add p s v).1.sibling i = s.1.sibling i := by
  have hne : i ≠ s.1.size := Nat.ne_of_lt (Nat.lt_of_lt_of_le hi h.size_le)
  rw [sibling_add hnew]
  cases hl : s.2 with
  | none => exact Function.update_of_ne hne _ _
  | some last =>
    dsimp only
    have hlast := (h.mem_new last).1 (List.mem_of_getLast? (h.last.symm.trans hl))
    rw [Function.update_of_ne (by omega), Function.update_of_ne hne]

/-- A child that was there keeps its parent and its vertex. -/
theorem kid_add (h : Mid succ a₀ bs s) (hnew : v ∉ s.1.used) {b : ℕ × List ℕ} (hb : b ∈ bs) {k : ℕ}
    (hk : k ∈ b.2) : (add p s v).1.parent k = s.1.parent k ∧ (add p s v).1.id k = s.1.id k := by
  have hlt := ((h.mem_new k).1 (List.mem_flatMap.2 ⟨b, hb, hk⟩)).2
  refine ⟨?_, id_add_of_lt hnew hlt⟩
  rw [parent_add hnew, Function.update_of_ne (Nat.ne_of_lt hlt)]

/-- The children of the nodes that are read, with the new one. -/
theorem block_add (h : Mid succ a₀ (bs ++ [(p, ks)]) s) (hp : p ∉ bs.map Prod.fst)
    (hv : v ∈ succ (a₀.id p)) (hnew : v ∉ s.1.used) :
    ∀ b ∈ bs ++ [(p, ks ++ [s.1.size])], b.1 < a₀.size ∧ (add p s v).1.child b.1 = b.2.head? ∧
      ∀ k ∈ b.2, (add p s v).1.parent k = some b.1 ∧ (add p s v).1.id k ∈ succ (a₀.id b.1) := by
  intro b hb
  have hle := h.size_le
  rw [h.child_add hnew]
  rcases List.mem_append.1 hb with hold | hlast
  · obtain ⟨hlt, hc, hkids⟩ := h.block b (List.mem_append_left _ hold)
    have hbp : b.1 ≠ p := by
      rintro hbp
      exact hp (List.mem_map.2 ⟨b, hold, hbp⟩)
    refine ⟨hlt, ?_, ?_⟩
    · rw [Function.update_of_ne hbp, Function.update_of_ne (by omega)]
      exact hc
    · intro k hk
      obtain ⟨hpar, hid⟩ := h.kid_add (p := p) hnew (List.mem_append_left _ hold) hk
      rw [hpar, hid]
      exact hkids k hk
  · obtain rfl := List.mem_singleton.1 hlast
    refine ⟨h.lt_of_last, Function.update_self _ _ _, ?_⟩
    intro k hk
    rcases List.mem_append.1 hk with hold | hk
    · obtain ⟨hpar, hid⟩ := h.kid_add (p := p) (b := (p, ks)) hnew (by simp) hold
      rw [hpar, hid]
      exact (h.block (p, ks) (by simp)).2.2 k hold
    · obtain rfl := List.mem_singleton.1 hk
      rw [parent_add hnew, Function.update_self, id_add_self hnew]
      exact ⟨rfl, hv⟩

/-- The vertices in use are those of the nodes, the new one too. -/
theorem used_add_iff (h : Mid succ a₀ bs s) (hnew : v ∉ s.1.used) (w : α) :
    w ∈ (add p s v).1.used ↔ ∃ i < (add p s v).1.size, (add p s v).1.id i = w := by
  rw [used_add hnew, List.mem_cons, size_add hnew, h.used]
  constructor
  · rintro (rfl | ⟨i, hi, rfl⟩)
    · exact ⟨s.1.size, Nat.lt_succ_self _, id_add_self hnew⟩
    · exact ⟨i, Nat.lt_succ_of_lt hi, id_add_of_lt hnew hi⟩
  · rintro ⟨i, hi, rfl⟩
    rcases Nat.lt_succ_iff_lt_or_eq.1 hi with hi | rfl
    · exact .inr ⟨i, hi, (id_add_of_lt hnew hi).symm⟩
    · exact .inl (id_add_self hnew)

/-- No vertex has two nodes. -/
theorem inj_add (h : Mid succ a₀ bs s) (hnew : v ∉ s.1.used) :
    ∀ i < (add p s v).1.size, ∀ j < (add p s v).1.size, (add p s v).1.id i = (add p s v).1.id j → i = j := by
  have hother : ∀ i < s.1.size, s.1.id i ≠ v := by
    intro i hi he
    exact hnew ((h.used v).2 ⟨i, hi, he⟩)
  intro i hi j hj he
  rw [size_add hnew] at hi hj
  rcases Nat.lt_succ_iff_lt_or_eq.1 hi with hi | rfl <;>
    rcases Nat.lt_succ_iff_lt_or_eq.1 hj with hj | rfl
  · rw [id_add_of_lt hnew hi, id_add_of_lt hnew hj] at he
    exact h.inj i hi j hj he
  · rw [id_add_of_lt hnew hi, id_add_self hnew] at he
    exact absurd he (hother i hi)
  · rw [id_add_of_lt hnew hj, id_add_self hnew] at he
    exact absurd he.symm (hother j hj)
  · rfl

/-- The new child was no neighbour of a node before. -/
theorem earliest_add (h : Mid succ a₀ (bs ++ [(p, ks)]) s)
    (hdone : ∀ b ∈ bs, ∀ w ∈ succ (a₀.id b.1), w ∈ s.1.used) (hnew : v ∉ s.1.used) :
    (bs ++ [(p, ks ++ [s.1.size])]).Pairwise fun b b' =>
      ∀ k ∈ b'.2, (add p s v).1.id k ∉ succ (a₀.id b.1) := by
  obtain ⟨hbs, -, hcross⟩ := List.pairwise_append.1 h.earliest
  refine List.pairwise_append.2 ⟨?_, List.pairwise_singleton _ _, ?_⟩
  · refine hbs.imp_of_mem fun {b b'} _ hb' hnot k hk => ?_
    rw [(h.kid_add hnew (List.mem_append_left _ hb') hk).2]
    exact hnot k hk
  · intro b hb b' hb' k hk
    obtain rfl := List.mem_singleton.1 hb'
    rcases List.mem_append.1 hk with hold | hk
    · rw [(h.kid_add (b := (p, ks)) hnew (by simp) hold).2]
      exact hcross b hb (p, ks) (by simp) k hold
    · obtain rfl := List.mem_singleton.1 hk
      rw [id_add_self hnew]
      exact fun hmem => hnew (hdone b hb v hmem)

/-- A new child of the node that is read. -/
theorem add_new (h : Mid succ a₀ (bs ++ [(p, ks)]) s) (hp : p ∉ bs.map Prod.fst)
    (hused : ∀ w, w ∈ a₀.used ↔ ∃ i < a₀.size, a₀.id i = w)
    (hdone : ∀ b ∈ bs, ∀ w ∈ succ (a₀.id b.1), w ∈ s.1.used) (hv : v ∈ succ (a₀.id p))
    (hnew : v ∉ s.1.used) : Mid succ a₀ (bs ++ [(p, ks ++ [s.1.size])]) (add p s v) := by
  have hflat : (bs ++ [(p, ks ++ [s.1.size])]).flatMap Prod.snd =
      (bs ++ [(p, ks)]).flatMap Prod.snd ++ [s.1.size] := by
    simp [List.flatMap_append]
  have hpa := h.lt_of_last
  have hle := h.size_le
  constructor
  · rw [size_add hnew]
    omega
  · intro i hi
    obtain ⟨hpar, hsib, hid⟩ := h.old i hi
    refine ⟨?_, (h.sibling_add_of_lt hnew hi).trans hsib, (id_add_of_lt hnew (by omega)).trans hid⟩
    rw [parent_add hnew, Function.update_of_ne (by omega), hpar]
  · intro i hi hmem
    rw [List.map_append, List.map_cons, List.map_nil] at hmem
    have hip : i ≠ p := by
      rintro rfl
      exact hmem (by simp)
    rw [h.child_add hnew, Function.update_of_ne hip, Function.update_of_ne (by omega)]
    refine h.untouched i hi ?_
    rw [List.map_append]
    exact hmem
  · rw [hflat, size_add hnew, h.new, Nat.succ_sub hle, List.range'_concat]
    congr 2
    omega
  · exact h.block_add hp hv hnew
  · rw [hflat]
    exact h.chain_add hnew
  · rw [hflat, last_add hnew, List.getLast?_concat]
  · intro k hk hlt
    rw [size_add hnew] at hlt
    rw [h.child_add hnew, Function.update_of_ne (by omega)]
    rcases Nat.lt_succ_iff_lt_or_eq.1 hlt with hlt | rfl
    · rw [Function.update_of_ne (by omega), id_add_of_lt hnew hlt]
      exact h.fresh k hk hlt
    · rw [Function.update_self, id_add_self hnew]
      exact ⟨rfl, fun hmem => hnew (h.used_mono hused v hmem)⟩
  · exact h.used_add_iff hnew
  · exact h.inj_add hnew
  · exact h.earliest_add hdone hnew

omit [DecidableEq α] in
/-- The next node of the level is read, and has no child yet. -/
theorem next (h : Mid succ a₀ bs s) (hp : p < a₀.size) (hnot : p ∉ bs.map Prod.fst)
    (hchild : a₀.child p = none) : Mid succ a₀ (bs ++ [(p, [])]) s := by
  have hflat : (bs ++ [(p, [])]).flatMap Prod.snd = bs.flatMap Prod.snd := by
    simp [List.flatMap_append]
  refine ⟨h.size_le, h.old, ?_, hflat ▸ h.new, ?_, hflat ▸ h.chain, hflat ▸ h.last, h.fresh, h.used, h.inj,
    ?_⟩
  · intro i hi hmem
    refine h.untouched i hi fun hold => hmem ?_
    rw [List.map_append]
    exact List.mem_append_left _ hold
  · intro b hb
    rcases List.mem_append.1 hb with hold | hlast
    · exact h.block b hold
    · obtain rfl := List.mem_singleton.1 hlast
      refine ⟨hp, ?_, fun k hk => absurd hk (by simp)⟩
      exact (h.untouched p hp hnot).trans hchild
  · refine List.pairwise_append.2 ⟨h.earliest, List.pairwise_singleton _ _, ?_⟩
    intro b _ b' hb' k hk
    obtain rfl := List.mem_singleton.1 hb'
    exact absurd hk List.not_mem_nil

/-- All vertices next to the node that is read. -/
theorem adds (h : Mid succ a₀ (bs ++ [(p, ks)]) s) (hp : p ∉ bs.map Prod.fst)
    (hused : ∀ w, w ∈ a₀.used ↔ ∃ i < a₀.size, a₀.id i = w)
    (hdone : ∀ b ∈ bs, ∀ w ∈ succ (a₀.id b.1), w ∈ s.1.used) {l : List α}
    (hl : ∀ v ∈ l, v ∈ succ (a₀.id p)) :
    ∃ ks', Mid succ a₀ (bs ++ [(p, ks')]) (l.foldl (add p) s) ∧
      (∀ v ∈ l, v ∈ (l.foldl (add p) s).1.used) ∧
      ∀ w ∈ s.1.used, w ∈ (l.foldl (add p) s).1.used := by
  induction l generalizing s ks with
  | nil => exact ⟨ks, h, fun v hv => absurd hv (by simp), fun w hw => hw⟩
  | cons v l ih =>
    rw [List.foldl_cons]
    have hrest : ∀ w ∈ l, w ∈ succ (a₀.id p) := fun w hw => hl w (List.mem_cons_of_mem _ hw)
    by_cases hv : v ∈ s.1.used
    · rw [add_of_mem hv]
      obtain ⟨ks', hmid, hmem, hmono⟩ := ih h hdone hrest
      refine ⟨ks', hmid, ?_, hmono⟩
      intro w hw
      rcases List.mem_cons.1 hw with rfl | hw
      · exact hmono _ hv
      · exact hmem w hw
    · have hadd := h.add_new hp hused hdone (hl v List.mem_cons_self) hv
      have husedv := used_add (p := p) hv
      have hdone' : ∀ b ∈ bs, ∀ w ∈ succ (a₀.id b.1), w ∈ (add p s v).1.used := by
        intro b hb w hw
        rw [husedv]
        exact List.mem_cons_of_mem _ (hdone b hb w hw)
      obtain ⟨ks', hmid, hmem, hmono⟩ := ih hadd hdone' hrest
      refine ⟨ks', hmid, ?_, ?_⟩
      · intro w hw
        rcases List.mem_cons.1 hw with rfl | hw
        · exact hmono _ (husedv ▸ List.mem_cons_self)
        · exact hmem w hw
      · intro w hw
        exact hmono w (husedv ▸ List.mem_cons_of_mem _ hw)

/-- The rest of the level is read. -/
theorem level (h : Mid succ a₀ bs s) {todo : List ℕ} (hchain : IsChain a₀.sibling q' todo)
    (hnodup : (bs.map Prod.fst ++ todo).Nodup) (hlt : ∀ i ∈ todo, i < a₀.size)
    (hfresh : ∀ i ∈ todo, a₀.child i = none)
    (hused : ∀ w, w ∈ a₀.used ↔ ∃ i < a₀.size, a₀.id i = w)
    (hdone : ∀ b ∈ bs, ∀ w ∈ succ (a₀.id b.1), w ∈ s.1.used) (hn : todo.length ≤ n)
    (hlists : ∀ i ∈ todo, lists (a₀.id i) = succ (a₀.id i)) :
    ∃ s' bs', Arena.level lists n s q' = some s' ∧ Mid succ a₀ (bs ++ bs') s' ∧ bs'.map Prod.fst = todo ∧
      (∀ i ∈ todo, ∀ v ∈ succ (a₀.id i), v ∈ s'.1.used) ∧ ∀ w ∈ s.1.used, w ∈ s'.1.used := by
  induction todo generalizing bs s q' n with
  | nil =>
    obtain rfl : q' = none := hchain
    refine ⟨s, [], ?_, ?_, rfl, fun i hi => absurd hi (by simp), fun w hw => hw⟩
    · cases n <;> rfl
    · rw [List.append_nil]
      exact h
  | cons p todo ih =>
    obtain ⟨rfl, hchain⟩ := hchain
    obtain ⟨n, rfl⟩ : ∃ n', n = n' + 1 := ⟨n - 1, by simp at hn; omega⟩
    have hp := hlt p List.mem_cons_self
    have hpnot : p ∉ bs.map Prod.fst := by
      intro hmem
      exact (List.nodup_append.1 hnodup).2.2 p hmem p List.mem_cons_self rfl
    have hidp := (h.old p hp).2.2
    obtain ⟨ks, hmid, hmem, hmono⟩ := (h.next hp hpnot (hfresh p List.mem_cons_self)).adds hpnot hused
      hdone (l := succ (a₀.id p)) fun v hv => hv
    have hdone' : ∀ b ∈ bs ++ [(p, ks)], ∀ w ∈ succ (a₀.id b.1),
        w ∈ ((succ (a₀.id p)).foldl (add p) s).1.used := by
      intro b hb w hw
      rcases List.mem_append.1 hb with hold | hlast
      · exact hmono w (hdone b hold w hw)
      · obtain rfl := List.mem_singleton.1 hlast
        exact hmem w hw
    have hnodup' : ((bs ++ [(p, ks)]).map Prod.fst ++ todo).Nodup := by
      rw [List.map_append, List.append_assoc]
      exact hnodup
    have hchain' : IsChain a₀.sibling (((succ (a₀.id p)).foldl (add p) s).1.sibling p) todo := by
      rw [(hmid.old p hp).2.1]
      exact hchain
    obtain ⟨s', bs', hlevel, hmid', hfst, hclosed, hmono'⟩ := ih hmid hchain' hnodup'
      (fun i hi => hlt i (List.mem_cons_of_mem _ hi)) (fun i hi => hfresh i (List.mem_cons_of_mem _ hi))
      hdone' (by simpa using hn) fun i hi => hlists i (List.mem_cons_of_mem _ hi)
    refine ⟨s', (p, ks) :: bs', ?_, ?_, ?_, ?_, fun w hw => hmono' w (hmono w hw)⟩
    · unfold Arena.level
      rw [hidp, hlists p List.mem_cons_self]
      exact hlevel
    · rw [List.append_assoc] at hmid'
      exact hmid'
    · rw [List.map_cons, hfst]
    · intro i hi v hv
      rcases List.mem_cons.1 hi with rfl | hi
      · exact hmono' v (hmem v hv)
      · exact hclosed i hi v hv

end Mid

omit [DecidableEq α] in
/-- The first child of a level is the first of its blocks. -/
theorem firstChild_blocks {p : ℕ} (hchain : IsChain a.sibling (some p) (bs.map Prod.fst))
    (hchild : ∀ b ∈ bs, a.child b.1 = b.2.head?) (hn : bs.length ≤ n) :
    a.firstChild n p = some (bs.flatMap Prod.snd).head? := by
  induction bs generalizing p n with
  | nil => cases hchain
  | cons b bs ih =>
    obtain ⟨hp, hchain⟩ := hchain
    obtain rfl : p = b.1 := Option.some.inj hp
    obtain ⟨n, rfl⟩ : ∃ n', n = n' + 1 := ⟨n - 1, by simp at hn; omega⟩
    have hb := hchild b List.mem_cons_self
    unfold firstChild
    rw [List.flatMap_cons, hb]
    cases hks : b.2 with
    | cons k ks => rfl
    | nil =>
      rw [List.nil_append]
      dsimp only [List.head?_nil]
      cases hsib : a.sibling b.1 with
      | none =>
        rw [hsib] at hchain
        have hnil : bs = [] := List.map_eq_nil_iff.1 hchain.eq_nil
        rw [hnil]
        rfl
      | some q =>
        rw [hsib] at hchain
        exact ih hchain (fun b hb => hchild b (List.mem_cons_of_mem _ hb)) (by simpa using hn)

/-! ## The tree -/

/-- The children of `p` from a pointer on. -/
def Kids (a : Arena α) (p : ℕ) : Option ℕ → List ℕ → Prop
  | c, [] => c = none ∨ ∃ i < a.size, c = some i ∧ a.parent i ≠ some p
  | c, k :: ks => c = some k ∧ a.parent k = some p ∧ Kids a p (a.sibling k) ks

omit [DecidableEq α] in
/-- The children of a node are a chain of siblings. -/
theorem kids_of_chain {c : Option ℕ} {rest : List ℕ} (hchain : IsChain a.sibling c (ks ++ rest))
    (hks : ∀ k ∈ ks, a.parent k = some p) (hrest : ∀ r ∈ rest, r < a.size ∧ a.parent r ≠ some p) :
    a.Kids p c ks := by
  induction ks generalizing c with
  | nil =>
    rw [List.nil_append] at hchain
    cases rest with
    | nil => exact .inl hchain
    | cons r rest => exact .inr ⟨r, (hrest r List.mem_cons_self).1, hchain.1, (hrest r List.mem_cons_self).2⟩
  | cons k ks ih =>
    exact ⟨hchain.1, hks k List.mem_cons_self,
      ih hchain.2 fun j hj => hks j (List.mem_cons_of_mem _ hj)⟩

omit [DecidableEq α] in
/-- The children stay as they are when the nodes do. -/
theorem Kids.congr {c : Option ℕ} (h : a₀.Kids p c ks) (hks : ∀ k ∈ ks, k < a₀.size)
    (hle : a₀.size ≤ a.size) (hold : ∀ i < a₀.size, a.parent i = a₀.parent i ∧ a.sibling i = a₀.sibling i) :
    a.Kids p c ks := by
  induction ks generalizing c with
  | nil =>
    rcases h with hnone | ⟨i, hi, hc, hne⟩
    · exact .inl hnone
    · exact .inr ⟨i, Nat.lt_of_lt_of_le hi hle, hc, (hold i hi).1.symm ▸ hne⟩
  | cons k ks ih =>
    obtain ⟨hc, hpar, hrest⟩ := h
    obtain ⟨hpar', hsib⟩ := hold k (hks k List.mem_cons_self)
    refine ⟨hc, hpar'.trans hpar, ?_⟩
    rw [hsib]
    exact ih hrest fun j hj => hks j (List.mem_cons_of_mem _ hj)

omit [DecidableEq α] in
/-- The walk over the children finds them. -/
theorem Kids.kids {c : Option ℕ} (h : a.Kids p c ks) (hn : ks.length ≤ n) : a.kids p n c = ks := by
  induction ks generalizing c n with
  | nil =>
    cases n with
    | zero => rfl
    | succ n =>
      rcases h with rfl | ⟨i, -, rfl, hne⟩
      · rfl
      · unfold Arena.kids
        rw [if_neg hne]
  | cons k ks ih =>
    obtain ⟨n, rfl⟩ : ∃ n', n = n' + 1 := ⟨n - 1, by simp at hn; omega⟩
    obtain ⟨rfl, hpar, hrest⟩ := h
    unfold Arena.kids
    rw [if_pos hpar, ih hrest (by simpa using hn)]

/-- A tree whose last level is `C`; the children of the nodes before are known. -/
structure Tree (root : α) (C : List ℕ) (a : Arena α) : Prop where
  pos : 0 < a.size
  rootId : a.id 0 = root
  rootParent : a.parent 0 = none
  parent : ∀ i, 0 < i → i < a.size → ∃ p < i, a.parent i = some p ∧ p ∉ C
  used : ∀ w, w ∈ a.used ↔ ∃ i < a.size, a.id i = w
  inj : ∀ i < a.size, ∀ j < a.size, a.id i = a.id j → i = j
  level : IsChain a.sibling C.head? C
  mem : ∀ i ∈ C, 0 < i ∧ i < a.size
  fresh : ∀ i ∈ C, a.child i = none
  first : ∀ t ∈ C.head?, ∀ p, a.parent t = some p → a.child p = some t
  kids : ∀ p < a.size, p ∉ C → ∃ ks : List ℕ, ks.Nodup ∧ a.Kids p (a.child p) ks ∧
    ∀ j, j ∈ ks ↔ j < a.size ∧ a.parent j = some p
  top : ∃ ks, IsChain a.sibling (a.child 0) ks ∧ (∀ k ∈ ks, k < a.size ∧ a.parent k = some 0) ∧
    ks.Pairwise fun i j => j < i

namespace Tree

variable {C : List ℕ}

omit [DecidableEq α] in
theorem nodup (h : Tree root C a) : C.Nodup := h.level.nodup

/-- What the reading of a level has found. -/
structure Next (succ : α → List α) (C : List ℕ) (a : Arena α) (C' : List ℕ) (a' : Arena α) : Prop where
  size : a'.size = a.size + C'.length
  old : ∀ i < a.size, a'.parent i = a.parent i ∧ a'.id i = a.id i
  mem : ∀ i, i ∈ C' ↔ a.size ≤ i ∧ i < a'.size
  new : ∀ i ∈ C', a'.id i ∉ a.used ∧ ∃ p ∈ C, a'.parent i = some p ∧ a'.id i ∈ succ (a.id p)
  closed : ∀ p ∈ C, ∀ v ∈ succ (a.id p), v ∈ a'.used
  mono : ∀ w ∈ a.used, w ∈ a'.used
  sorted : ∀ R : ℕ → ℕ → Prop, (∀ p ∈ C, R p p) → C.Pairwise R →
    C'.Pairwise fun i j => ∀ p q, a'.parent i = some p → a'.parent j = some q → R p q
  earliest : ∀ R : ℕ → ℕ → Prop, (∀ p ∈ C, R p p) → C.Pairwise R →
    ∀ i ∈ C', ∀ p, a'.parent i = some p → ∀ q ∈ C, a'.id i ∈ succ (a.id q) → R p q

omit [DecidableEq α] in
/-- Before the level is read. -/
theorem mid (h : Tree root C a) : Mid succ a [] (a, none) := by
  refine ⟨Nat.le_refl _, fun i _ => ⟨rfl, rfl, rfl⟩, fun i _ _ => rfl, ?_, ?_, rfl, rfl, ?_, h.used, h.inj,
    .nil⟩
  · rw [Nat.sub_self]
    rfl
  · exact fun b hb => absurd hb (by simp)
  · exact fun k hk hk' => absurd hk' (Nat.not_lt.2 hk)

omit [DecidableEq α] in
/-- The nodes of the last level are not the root. -/
theorem lists_eq (h : Tree root C a) (hlists : ∀ v, v ≠ root → lists v = succ v) :
    ∀ i ∈ C, lists (a.id i) = succ (a.id i) := by
  intro i hi
  refine hlists _ ?_
  intro he
  have := h.inj i (h.mem i hi).2 0 h.pos (he.trans h.rootId.symm)
  have := (h.mem i hi).1
  omega

omit [DecidableEq α] in
/-- The last level is no longer than the tree is large. -/
theorem length_le (h : Tree root C a) : C.length ≤ a.size := by
  have hsub : C ⊆ List.range a.size := fun i hi => List.mem_range.2 (h.mem i hi).2
  have := (List.subperm_of_subset h.nodup hsub).length_le
  rwa [List.length_range] at this

omit [DecidableEq α] in
/-- The block of a node that is on the new level. -/
theorem exists_block (hmid : Mid succ a bs s) {i : ℕ} (hi : i ∈ bs.flatMap Prod.snd) :
    ∃ b ∈ bs, i ∈ b.2 ∧ s.1.parent i = some b.1 := by
  obtain ⟨b, hb, hib⟩ := List.mem_flatMap.1 hi
  exact ⟨b, hb, hib, ((hmid.block b hb).2.2 i hib).1⟩

omit [DecidableEq α] in
/-- The parent of a node on the new level is the node of its block. -/
theorem parent_of_block (hmid : Mid succ a bs s) {b : ℕ × List ℕ} (hb : b ∈ bs) {i p : ℕ} (hi : i ∈ b.2)
    (hpar : s.1.parent i = some p) : b.1 = p :=
  Option.some.inj (((hmid.block b hb).2.2 i hi).1.symm.trans hpar)

omit [DecidableEq α] in
/-- The children of a node of the level that was read are its block. -/
theorem kids_of_block (hmid : Mid succ a bs s) (hkeys : (bs.map Prod.fst).Nodup) {b : ℕ × List ℕ}
    (hb : b ∈ bs) : b.2.Nodup ∧ s.1.Kids b.1 (s.1.child b.1) b.2 := by
  obtain ⟨pre, post, rfl⟩ := List.append_of_mem hb
  have hnodup : ((pre ++ b :: post).flatMap Prod.snd).Nodup := hmid.chain.nodup
  have hchain := hmid.chain
  rw [List.flatMap_append, List.flatMap_cons] at hchain hnodup
  refine ⟨(List.nodup_append.1 (List.nodup_append.1 hnodup).2.1).1, ?_⟩
  rw [(hmid.block b hb).2.1]
  obtain ⟨q, hq⟩ := hchain.drop_append
  cases hks : b.2 with
  | nil => exact .inl rfl
  | cons k ks =>
    rw [hks] at hq
    obtain rfl : q = some k := hq.1
    refine kids_of_chain hq ?_ ?_
    · intro j hj
      exact ((hmid.block b hb).2.2 j (hks ▸ hj)).1
    · -- the nodes behind the block are children of other nodes
      intro r hr
      obtain ⟨b', hb', hrb⟩ := List.mem_flatMap.1 hr
      have hb'' : b' ∈ pre ++ b :: post := by simp [hb']
      refine ⟨((hmid.mem_new r).1 (List.mem_flatMap.2 ⟨b', hb'', hrb⟩)).2, ?_⟩
      rw [((hmid.block b' hb'').2.2 r hrb).1]
      intro heq
      rw [List.map_append, List.map_cons] at hkeys
      have hnot := (List.nodup_cons.1 (List.nodup_append.1 hkeys).2.1).1
      refine hnot ?_
      rw [← Option.some.inj heq]
      exact List.mem_map_of_mem hb'

omit [DecidableEq α] in
/-- The block of a node of the level holds all nodes below it. -/
theorem mem_block_iff (h : Tree root C a) (hmid : Mid succ a bs s) (hfst : bs.map Prod.fst = C)
    {b : ℕ × List ℕ} (hb : b ∈ bs) (j : ℕ) :
    j ∈ b.2 ↔ j < s.1.size ∧ s.1.parent j = some b.1 := by
  constructor
  · intro hj
    exact ⟨((hmid.mem_new j).1 (List.mem_flatMap.2 ⟨b, hb, hj⟩)).2, ((hmid.block b hb).2.2 j hj).1⟩
  · rintro ⟨hj, hpar⟩
    by_cases hold : j < a.size
    · rw [(hmid.old j hold).1] at hpar
      rcases Nat.eq_zero_or_pos j with rfl | hpos
      · rw [h.rootParent] at hpar
        cases hpar
      · obtain ⟨p, -, hpar', hnot⟩ := h.parent j hpos hold
        obtain rfl : p = b.1 := Option.some.inj (hpar'.symm.trans hpar)
        exact absurd (hfst ▸ List.mem_map_of_mem hb) hnot
    · obtain ⟨b', hb', hjb, -⟩ := exists_block hmid ((hmid.mem_new j).2 ⟨Nat.not_lt.1 hold, hj⟩)
      have hkeys : (bs.map Prod.fst).Nodup := hfst.symm ▸ h.nodup
      obtain rfl : b' = b := List.inj_on_of_nodup_map hkeys hb' hb (parent_of_block hmid hb' hjb hpar)
      exact hjb

omit [DecidableEq α] in
/-- The children of a node of an earlier level stay. -/
theorem kids_before (h : Tree root C a) (hmid : Mid succ a bs s) (hfst : bs.map Prod.fst = C) {p : ℕ}
    (hp : p < a.size) (hpC : p ∉ C) : ∃ ks : List ℕ, ks.Nodup ∧
      s.1.Kids p (s.1.child p) ks ∧ ∀ j, j ∈ ks ↔ j < s.1.size ∧ s.1.parent j = some p := by
  obtain ⟨ks, hnd, hk, hmem⟩ := h.kids p hp hpC
  refine ⟨ks, hnd, ?_, ?_⟩
  · rw [hmid.untouched p hp (hfst ▸ hpC)]
    refine hk.congr (fun k hk => ((hmem k).1 hk).1) hmid.size_le ?_
    exact fun i hi => ⟨(hmid.old i hi).1, (hmid.old i hi).2.1⟩
  · intro j
    rw [hmem]
    constructor
    · rintro ⟨hj, hpar⟩
      exact ⟨Nat.lt_of_lt_of_le hj hmid.size_le, ((hmid.old j hj).1).trans hpar⟩
    · rintro ⟨hj, hpar⟩
      by_cases hold : j < a.size
      · exact ⟨hold, (hmid.old j hold).1 ▸ hpar⟩
      · obtain ⟨b, hb, hjb, -⟩ := exists_block hmid ((hmid.mem_new j).2 ⟨Nat.not_lt.1 hold, hj⟩)
        obtain rfl := parent_of_block hmid hb hjb hpar
        exact absurd (hfst ▸ List.mem_map_of_mem hb) hpC

omit [DecidableEq α] in
/-- The new level begins with the first child of its parent. -/
theorem first_of_blocks (hmid : Mid succ a bs s) :
    ∀ t ∈ (bs.flatMap Prod.snd).head?, ∀ p, s.1.parent t = some p → s.1.child p = some t := by
  intro t ht p hpar
  obtain ⟨b, hb, hbt⟩ : ∃ b ∈ bs, b.2.head? = some t := by
    clear hmid
    induction bs with
    | nil => cases ht
    | cons b bs ih =>
      cases hks : b.2 with
      | nil =>
        rw [List.flatMap_cons, hks, List.nil_append] at ht
        obtain ⟨b', hb', hbt⟩ := ih ht
        exact ⟨b', List.mem_cons_of_mem _ hb', hbt⟩
      | cons k ks =>
        rw [List.flatMap_cons, hks] at ht
        exact ⟨b, List.mem_cons_self, by rw [hks]; exact ht⟩
  obtain rfl := parent_of_block hmid hb (List.mem_of_mem_head? hbt) hpar
  rw [(hmid.block b hb).2.1, hbt]

omit [DecidableEq α] in
/-- When the level is read, the tree has a new last level. -/
theorem grown (h : Tree root C a) (hmid : Mid succ a bs s) (hfst : bs.map Prod.fst = C) :
    Tree root (bs.flatMap Prod.snd) s.1 := by
  have hbC : ∀ b ∈ bs, b.1 ∈ C := fun b hb => hfst ▸ List.mem_map_of_mem hb
  refine ⟨Nat.lt_of_lt_of_le h.pos hmid.size_le, (hmid.old 0 h.pos).2.2.trans h.rootId,
    (hmid.old 0 h.pos).1.trans h.rootParent, ?_, hmid.used, hmid.inj, hmid.chain, ?_, ?_,
    first_of_blocks hmid, ?_, ?_⟩
  · intro i hpos hi
    by_cases hold : i < a.size
    · obtain ⟨p, hp, hpar, -⟩ := h.parent i hpos hold
      refine ⟨p, hp, ((hmid.old i hold).1).trans hpar, ?_⟩
      intro hmem
      have := (hmid.mem_new p).1 hmem
      omega
    · obtain ⟨b, hb, -, hpar⟩ := exists_block hmid ((hmid.mem_new i).2 ⟨Nat.not_lt.1 hold, hi⟩)
      have hlt := (hmid.block b hb).1
      refine ⟨b.1, by omega, hpar, fun hmem => ?_⟩
      have := (hmid.mem_new b.1).1 hmem
      omega
  · intro i hi
    have hi := (hmid.mem_new i).1 hi
    exact ⟨Nat.lt_of_lt_of_le h.pos hi.1, hi.2⟩
  · intro i hi
    have hi := (hmid.mem_new i).1 hi
    exact (hmid.fresh i hi.1 hi.2).1
  · intro p hp hpnew
    have hpold : p < a.size := by
      by_contra hge
      exact hpnew ((hmid.mem_new p).2 ⟨Nat.not_lt.1 hge, hp⟩)
    by_cases hpC : p ∈ C
    · obtain ⟨b, hb, rfl⟩ := List.mem_map.1 (hfst.symm ▸ hpC)
      obtain ⟨hnodup, hkids⟩ := kids_of_block hmid (hfst.symm ▸ h.nodup) hb
      exact ⟨b.2, hnodup, hkids, h.mem_block_iff hmid hfst hb⟩
    · exact h.kids_before hmid hfst hpold hpC
  · obtain ⟨ks, hchain, hks, hsorted⟩ := h.top
    refine ⟨ks, ?_, fun k hk => ?_, hsorted⟩
    · have hroot : 0 ∉ bs.map Prod.fst := by
        rw [hfst]
        exact fun hmem => absurd (h.mem 0 hmem).1 (Nat.lt_irrefl 0)
      rw [hmid.untouched 0 h.pos hroot]
      exact hchain.congr fun k hk => (hmid.old k (hks k hk).1).2.1
    · obtain ⟨hk, hpar⟩ := hks k hk
      exact ⟨Nat.lt_of_lt_of_le hk hmid.size_le, (hmid.old k hk).1.trans hpar⟩

omit [DecidableEq α] in
/-- What the reading of the level has found. -/
theorem found (hmid : Mid succ a bs s) (hfst : bs.map Prod.fst = C)
    (hclosed : ∀ i ∈ C, ∀ v ∈ succ (a.id i), v ∈ s.1.used) (hmono : ∀ w ∈ a.used, w ∈ s.1.used) :
    Next succ C a (bs.flatMap Prod.snd) s.1 := by
  have hbC : ∀ b ∈ bs, b.1 ∈ C := fun b hb => hfst ▸ List.mem_map_of_mem hb
  have hsize : s.1.size = a.size + (bs.flatMap Prod.snd).length := by
    have := hmid.size_le
    rw [hmid.new, List.length_range']
    omega
  refine ⟨hsize, fun i hi => ⟨(hmid.old i hi).1, (hmid.old i hi).2.2⟩, hmid.mem_new, ?_, hclosed, hmono,
    ?_, ?_⟩
  · intro i hi
    have hi' := (hmid.mem_new i).1 hi
    obtain ⟨b, hb, hib, hpar⟩ := exists_block hmid hi
    exact ⟨(hmid.fresh i hi'.1 hi'.2).2, b.1, hbC b hb, hpar, ((hmid.block b hb).2.2 i hib).2⟩
  · intro R hrefl hR
    rw [← hfst, List.pairwise_map] at hR
    refine List.pairwise_flatMap.2 ⟨fun b hb => ?_, hR.imp_of_mem ?_⟩
    · refine List.pairwise_of_forall_mem_list fun i hi j hj p q hp hq => ?_
      obtain rfl := parent_of_block hmid hb hi hp
      obtain rfl := parent_of_block hmid hb hj hq
      exact hrefl b.1 (hbC b hb)
    · intro b b' hb hb' hbb i hi j hj p q hp hq
      obtain rfl := parent_of_block hmid hb hi hp
      obtain rfl := parent_of_block hmid hb' hj hq
      exact hbb
  · intro R hrefl hR i hi p hpar q hq hsucc
    obtain ⟨b, hb, hib, -⟩ := exists_block hmid hi
    obtain rfl := parent_of_block hmid hb hib hpar
    obtain ⟨b', hb', rfl⟩ := List.mem_map.1 (hfst.symm ▸ hq)
    rw [← hfst, List.pairwise_map] at hR
    have hearly := hmid.earliest
    obtain ⟨pre, post, rfl⟩ := List.append_of_mem hb
    rcases List.mem_append.1 hb' with hpre | hcons
    · exact absurd hsucc ((List.pairwise_append.1 hearly).2.2 b' hpre b List.mem_cons_self i hib)
    · rcases List.mem_cons.1 hcons with rfl | hpost
      · exact hrefl _ hq
      · exact (List.pairwise_cons.1 (List.pairwise_append.1 hR).2.1).1 b' hpost

/-- One round: the level is read, and the search finds the beginning of the next one. -/
theorem round (h : Tree root C a) (hC : C ≠ []) (hn : a.size ≤ n)
    (hlists : ∀ v, v ≠ root → lists v = succ v) :
    ∃ s C', Arena.level lists n (a, none) C.head? = some s ∧ Tree root C' s.1 ∧ Next succ C a C' s.1 ∧
      ∃ p q, s.1.parent (C.head hC) = some p ∧ s.1.child p = some q ∧ s.1.firstChild n q = some C'.head? := by
  have hlen : C.length ≤ n := Nat.le_trans h.length_le hn
  obtain ⟨s, bs, hlevel, hmid, hfst, hclosed, hmono⟩ := h.mid.level h.level (by simpa using h.nodup)
    (fun i hi => (h.mem i hi).2) h.fresh h.used (fun b hb => absurd hb List.not_mem_nil) hlen
    (h.lists_eq hlists)
  rw [List.nil_append] at hmid
  refine ⟨s, bs.flatMap Prod.snd, hlevel, h.grown hmid hfst, found hmid hfst hclosed hmono, ?_⟩
  -- the search begins at the first child of the parent of the level, which is the level's first node
  obtain ⟨hpos, hlt⟩ := h.mem _ (List.head_mem hC)
  obtain ⟨p, hp, hpar, hnot⟩ := h.parent _ hpos hlt
  have hchild := h.first (C.head hC) (List.head?_eq_some_head hC) p hpar
  refine ⟨p, C.head hC, (hmid.old _ hlt).1.trans hpar, ?_, ?_⟩
  · exact (hmid.untouched p (by omega) (hfst ▸ hnot)).trans hchild
  · refine firstChild_blocks ?_ (fun b hb => (hmid.block b hb).2.1) ?_
    · rw [hfst, ← List.head?_eq_some_head hC]
      exact h.level.congr fun i hi => (hmid.old i (h.mem i hi).2).2.1
    · rw [← List.length_map (f := Prod.fst), hfst]
      exact hlen

end Tree

/-! ## The first level -/

/-- While the vertices next to the root are read. -/
structure Begun (succ : α → List α) (root : α) (done : List α) (a : Arena α) : Prop where
  pos : 0 < a.size
  rootId : a.id 0 = root
  rootParent : a.parent 0 = none
  parent : ∀ i, 0 < i → i < a.size → a.parent i = some 0
  fresh : ∀ i, 0 < i → i < a.size → a.child i = none
  chain : IsChain a.sibling (a.child 0) (List.range' 1 (a.size - 1)).reverse
  used : ∀ w, w ∈ a.used ↔ ∃ i < a.size, a.id i = w
  inj : ∀ i < a.size, ∀ j < a.size, a.id i = a.id j → i = j
  new : ∀ i, 0 < i → i < a.size → a.id i ∈ done
  closed : ∀ v ∈ done, v ∈ a.used
  listed : ∀ i j, 0 < i → i < j → j < a.size → done.idxOf (a.id i) < done.idxOf (a.id j)

/-- The root alone. -/
theorem begun_single (root : α) : Begun succ root [] (single root) := by
  refine ⟨Nat.one_pos, rfl, rfl, ?_, ?_, rfl, ?_, ?_, ?_, ?_, ?_⟩
  · exact fun i hpos hi => absurd hi (by simp [single]; omega)
  · exact fun i hpos hi => absurd hi (by simp [single]; omega)
  · intro w
    simp [single, eq_comm]
  · intro i hi j hj _
    simp only [single] at hi hj
    omega
  · exact fun i hpos hi => absurd hi (by simp [single]; omega)
  · exact fun v hv => absurd hv (by simp)
  · exact fun i j _ hij hj => absurd hj (by simp [single]; omega)

/-- One neighbour of the root more. -/
theorem Begun.addFirst {done : List α} (h : Begun succ root done a) (v : α) :
    Begun succ root (done ++ [v]) (a.addFirst v) := by
  by_cases hv : v ∈ a.used
  · rw [Arena.addFirst, if_pos hv]
    refine ⟨h.pos, h.rootId, h.rootParent, h.parent, h.fresh, h.chain, h.used, h.inj, ?_, ?_, ?_⟩
    · exact fun i hpos hi => List.mem_append_left _ (h.new i hpos hi)
    · intro w hw
      rcases List.mem_append.1 hw with hw | hw
      · exact h.closed w hw
      · exact List.mem_singleton.1 hw ▸ hv
    · intro i j hi hij hj
      rw [List.idxOf_append_of_mem (h.new i hi (by omega)), List.idxOf_append_of_mem (h.new j (by omega) hj)]
      exact h.listed i j hi hij hj
  · rw [Arena.addFirst, if_neg hv]
    have hpos := h.pos
    have hne {i : ℕ} (hi : i < a.size) : i ≠ a.size := Nat.ne_of_lt hi
    have hother : ∀ i < a.size, a.id i ≠ v := fun i hi he => hv ((h.used v).2 ⟨i, hi, he⟩)
    constructor
    · exact Nat.succ_pos _
    · exact (Function.update_of_ne (hne hpos) _ _).trans h.rootId
    · exact (Function.update_of_ne (hne hpos) _ _).trans h.rootParent
    · intro i hi hlt
      rcases Nat.lt_succ_iff_lt_or_eq.1 hlt with hlt | rfl
      · exact (Function.update_of_ne (hne hlt) _ _).trans (h.parent i hi hlt)
      · exact Function.update_self _ _ _
    · intro i hi hlt
      refine (Function.update_of_ne (Nat.ne_of_gt hi) _ _).trans ?_
      rcases Nat.lt_succ_iff_lt_or_eq.1 hlt with hlt | rfl
      · exact (Function.update_of_ne (hne hlt) _ _).trans (h.fresh i hi hlt)
      · exact Function.update_self _ _ _
    · have hrange : (List.range' 1 (a.size + 1 - 1)).reverse =
          a.size :: (List.range' 1 (a.size - 1)).reverse := by
        have hsucc : a.size + 1 - 1 = (a.size - 1) + 1 := by omega
        rw [hsucc, List.range'_concat, List.reverse_append, List.reverse_singleton, List.singleton_append]
        congr 1
        omega
      show IsChain _ (Function.update (Function.update a.child a.size none) 0 (some a.size) 0)
        (List.range' 1 (a.size + 1 - 1)).reverse
      rw [hrange, Function.update_self]
      refine h.chain.push ?_
      rw [List.mem_reverse, List.mem_range'_1]
      omega
    · intro w
      show w ∈ v :: a.used ↔ _
      rw [List.mem_cons, h.used]
      constructor
      · rintro (rfl | ⟨i, hi, rfl⟩)
        · exact ⟨a.size, Nat.lt_succ_self _, Function.update_self _ _ _⟩
        · exact ⟨i, Nat.lt_succ_of_lt hi, Function.update_of_ne (hne hi) _ _⟩
      · rintro ⟨i, hi, rfl⟩
        rcases Nat.lt_succ_iff_lt_or_eq.1 hi with hi | rfl
        · exact .inr ⟨i, hi, (Function.update_of_ne (hne hi) _ _).symm⟩
        · exact .inl (Function.update_self _ _ _)
    · intro i hi j hj he
      dsimp only at he
      rcases Nat.lt_succ_iff_lt_or_eq.1 hi with hi | rfl <;>
        rcases Nat.lt_succ_iff_lt_or_eq.1 hj with hj | rfl
      · rw [Function.update_of_ne (hne hi), Function.update_of_ne (hne hj)] at he
        exact h.inj i hi j hj he
      · rw [Function.update_of_ne (hne hi), Function.update_self] at he
        exact absurd he (hother i hi)
      · rw [Function.update_of_ne (hne hj), Function.update_self] at he
        exact absurd he.symm (hother j hj)
      · rfl
    · intro i hi hlt
      show Function.update a.id a.size v i ∈ done ++ [v]
      rcases Nat.lt_succ_iff_lt_or_eq.1 hlt with hlt | rfl
      · rw [Function.update_of_ne (hne hlt)]
        exact List.mem_append_left _ (h.new i hi hlt)
      · rw [Function.update_self]
        exact List.mem_append_right _ (List.mem_singleton.2 rfl)
    · intro w hw
      rcases List.mem_append.1 hw with hw | hw
      · exact List.mem_cons_of_mem _ (h.closed w hw)
      · exact List.mem_singleton.1 hw ▸ List.mem_cons_self
    · intro i j hi hij hlt
      show (done ++ [v]).idxOf (Function.update a.id a.size v i) <
        (done ++ [v]).idxOf (Function.update a.id a.size v j)
      have hlt' : j ≤ a.size := Nat.lt_succ_iff.1 hlt
      have hmem := h.new i hi (by omega)
      rw [Function.update_of_ne (hne (by omega)), List.idxOf_append_of_mem hmem]
      rcases Nat.lt_or_eq_of_le hlt' with hj | rfl
      · rw [Function.update_of_ne (hne hj), List.idxOf_append_of_mem (h.new j (by omega) hj)]
        exact h.listed i j hi hij hj
      · have hnot : v ∉ done := fun hmem => hv (h.closed v hmem)
        rw [Function.update_self, List.idxOf_append_of_notMem hnot]
        have := List.idxOf_lt_length_of_mem hmem
        omega

/-- The neighbours of the root. -/
theorem begun_foldl {done l : List α} (h : Begun succ root done a) :
    Begun succ root (done ++ l) (l.foldl addFirst a) := by
  induction l generalizing done a with
  | nil =>
    rw [List.append_nil]
    exact h
  | cons v l ih =>
    have := ih (h.addFirst v)
    rwa [List.append_assoc] at this

omit [DecidableEq α] in
/-- The first level. -/
theorem Begun.mem_level (i : ℕ) :
    i ∈ (List.range' 1 (a.size - 1)).reverse ↔ 0 < i ∧ i < a.size := by
  rw [List.mem_reverse, List.mem_range'_1]
  omega

/-- The root and its neighbours are a tree. -/
theorem Begun.tree {done : List α} (h : Begun succ root done a) :
    Tree root (List.range' 1 (a.size - 1)).reverse a := by
  have hhead := h.chain.head_eq
  refine ⟨h.pos, h.rootId, h.rootParent, ?_, h.used, h.inj, ?_, fun i hi => (mem_level i).1 hi, ?_, ?_, ?_,
    ⟨_, h.chain, ?_, List.pairwise_reverse.2 List.pairwise_lt_range'⟩⟩
  · intro i hpos hi
    refine ⟨0, hpos, h.parent i hpos hi, ?_⟩
    rw [mem_level]
    omega
  · rw [← hhead]
    exact h.chain
  · intro i hi
    obtain ⟨hpos, hlt⟩ := (mem_level i).1 hi
    exact h.fresh i hpos hlt
  · intro t ht p hpar
    obtain ⟨hpos, hlt⟩ := (mem_level t).1 (List.mem_of_mem_head? ht)
    obtain rfl : 0 = p := Option.some.inj ((h.parent t hpos hlt).symm.trans hpar)
    exact hhead.trans ht
  · intro p hp hnot
    obtain rfl : p = 0 := by
      by_contra hne
      exact hnot ((mem_level p).2 ⟨Nat.pos_of_ne_zero hne, hp⟩)
    refine ⟨_, h.chain.nodup, ?_, ?_⟩
    · refine kids_of_chain (by rw [List.append_nil]; exact h.chain) ?_ (fun r hr => absurd hr (by simp))
      · intro k hk
        obtain ⟨hpos, hlt⟩ := (mem_level k).1 hk
        exact h.parent k hpos hlt
    · intro j
      rw [mem_level]
      constructor
      · rintro ⟨hpos, hlt⟩
        exact ⟨hlt, h.parent j hpos hlt⟩
      · rintro ⟨hlt, hpar⟩
        refine ⟨Nat.pos_of_ne_zero ?_, hlt⟩
        rintro rfl
        rw [h.rootParent] at hpar
        cases hpar
  · intro k hk
    obtain ⟨hpos, hlt⟩ := (mem_level k).1 hk
    exact ⟨hlt, h.parent k hpos hlt⟩

/-! ## Distances -/

/-- The levels up to `C` are the vertices within `k` hops. -/
structure Within (succ : α → List α) (root : α) (k : ℕ) (C : List ℕ) (a : Arena α) : Prop where
  used : ∀ v, v ∈ a.used ↔ ∃ m ≤ k, Reach succ root m v
  here : ∀ i ∈ C, HopDist succ root k (a.id i)
  all : ∀ v, HopDist succ root k v → ∃ i ∈ C, a.id i = v
  depth : ∀ i < a.size, ∀ p, a.parent i = some p →
    a.id i ∈ succ (a.id p) ∧ ∃ d, HopDist succ root d (a.id p) ∧ HopDist succ root (d + 1) (a.id i)

omit [DecidableEq α] in
/-- A walk without steps. -/
theorem reach_zero {v : α} (h : Reach succ root 0 v) : v = root := by
  cases h
  rfl

/-- The first level is at distance 1. -/
theorem Begun.within (h : Begun succ root (succ root) a) :
    Within succ root 1 (List.range' 1 (a.size - 1)).reverse a := by
  have hroot : root ∈ a.used := (h.used root).2 ⟨0, h.pos, h.rootId⟩
  have hone : ∀ i, 0 < i → i < a.size → HopDist succ root 1 (a.id i) := by
    intro i hpos hi
    refine ⟨.tail .refl (h.new i hpos hi), ?_⟩
    intro n hn
    by_contra hlt
    obtain rfl : n = 0 := by omega
    have heq := h.inj i hi 0 h.pos ((reach_zero hn).trans h.rootId.symm)
    omega
  refine ⟨?_, ?_, ?_, ?_⟩
  · intro v
    constructor
    · intro hv
      obtain ⟨i, hi, rfl⟩ := (h.used v).1 hv
      rcases Nat.eq_zero_or_pos i with rfl | hpos
      · exact ⟨0, Nat.zero_le _, h.rootId ▸ .refl⟩
      · exact ⟨1, Nat.le_refl _, (hone i hpos hi).1⟩
    · rintro ⟨m, hm, hv⟩
      cases hv with
      | refl => exact hroot
      | tail hu hv =>
        obtain rfl := Nat.le_zero.1 (Nat.le_of_succ_le_succ hm)
        obtain rfl := reach_zero hu
        exact h.closed v hv
  · intro i hi
    obtain ⟨hpos, hlt⟩ := (mem_level i).1 hi
    exact hone i hpos hlt
  · intro v hv
    cases hv.1 with
    | tail hu hw =>
      obtain rfl := reach_zero hu
      obtain ⟨i, hi, rfl⟩ := (h.used v).1 (h.closed v hw)
      refine ⟨i, (mem_level i).2 ⟨Nat.pos_of_ne_zero ?_, hi⟩, rfl⟩
      rintro rfl
      have := hv.2 0 (h.rootId.symm ▸ .refl)
      omega
  · intro i hi p hpar
    rcases Nat.eq_zero_or_pos i with rfl | hpos
    · rw [h.rootParent] at hpar
      cases hpar
    · obtain rfl : 0 = p := Option.some.inj ((h.parent i hpos hi).symm.trans hpar)
      rw [h.rootId]
      exact ⟨h.new i hpos hi, 0, ⟨.refl, fun _ _ => Nat.zero_le _⟩, hone i hpos hi⟩

omit [DecidableEq α] in
/-- The next level is one step further. -/
theorem Within.next {k : ℕ} {C C' : List ℕ} {a' : Arena α} (h : Within succ root k C a)
    (ht : Tree root C a) (ht' : Tree root C' a') (hn : Tree.Next succ C a C' a') :
    Within succ root (k + 1) C' a' := by
  have hnew : ∀ i ∈ C', HopDist succ root (k + 1) (a'.id i) := by
    intro i hi
    obtain ⟨hnot, p, hp, -, hsucc⟩ := hn.new i hi
    refine ⟨.tail (h.here p hp).1 hsucc, ?_⟩
    intro n hr
    by_contra hlt
    exact hnot ((h.used _).2 ⟨n, by omega, hr⟩)
  refine ⟨?_, hnew, ?_, ?_⟩
  · intro v
    constructor
    · intro hv
      obtain ⟨i, hi, rfl⟩ := (ht'.used v).1 hv
      by_cases hold : i < a.size
      · rw [(hn.old i hold).2]
        obtain ⟨m, hm, hr⟩ := (h.used _).1 ((ht.used _).2 ⟨i, hold, rfl⟩)
        exact ⟨m, by omega, hr⟩
      · exact ⟨k + 1, Nat.le_refl _, (hnew i ((hn.mem i).2 ⟨Nat.not_lt.1 hold, hi⟩)).1⟩
    · rintro ⟨m, hm, hv⟩
      rcases Nat.lt_or_ge k m with hlt | hle
      · obtain rfl : m = k + 1 := by omega
        cases hv with
        | tail hu hw =>
          rename_i u
          obtain ⟨d, hd, hdist⟩ := hu.hopDist
          rcases Nat.lt_or_ge d k with hdlt | hdge
          · exact hn.mono v ((h.used v).2 ⟨d + 1, by omega, .tail hdist.1 hw⟩)
          · obtain rfl : d = k := by omega
            obtain ⟨p, hp, rfl⟩ := h.all u hdist
            exact hn.closed p hp v hw
      · exact hn.mono v ((h.used v).2 ⟨m, hle, hv⟩)
  · intro v hv
    cases hv.1 with
    | tail hu hw =>
      rename_i u
      obtain ⟨d, hd, hdist⟩ := hu.hopDist
      have hge := hv.2 (d + 1) (.tail hdist.1 hw)
      obtain rfl : d = k := by omega
      obtain ⟨p, hp, rfl⟩ := h.all u hdist
      obtain ⟨i, hi, rfl⟩ := (ht'.used v).1 (hn.closed p hp v hw)
      refine ⟨i, (hn.mem i).2 ⟨?_, hi⟩, rfl⟩
      by_contra hlt
      have hold : i < a.size := Nat.not_le.1 hlt
      rw [(hn.old i hold).2] at hv
      obtain ⟨m, hm, hr⟩ := (h.used _).1 ((ht.used _).2 ⟨i, hold, rfl⟩)
      have := hv.2 m hr
      omega
  · intro i hi p hpar
    by_cases hold : i < a.size
    · rw [(hn.old i hold).1] at hpar
      have hp : p < a.size := by
        rcases Nat.eq_zero_or_pos i with rfl | hpos
        · rw [ht.rootParent] at hpar
          cases hpar
        · obtain ⟨p', hlt, hpar', -⟩ := ht.parent i hpos hold
          obtain rfl : p' = p := Option.some.inj (hpar'.symm.trans hpar)
          omega
      rw [(hn.old i hold).2, (hn.old p hp).2]
      exact h.depth i hold p hpar
    · have hmem := (hn.mem i).2 ⟨Nat.not_lt.1 hold, hi⟩
      obtain ⟨-, p', hp', hpar', hsucc⟩ := hn.new i hmem
      obtain rfl : p' = p := Option.some.inj (hpar'.symm.trans hpar)
      rw [(hn.old p' (ht.mem p' hp').2).2]
      exact ⟨hsucc, k, h.here p' hp', hnew i hmem⟩

omit [DecidableEq α] in
/-- On the way to a vertex there is one at every smaller distance. -/
theorem exists_hopDist {k : ℕ} (h : HopDist succ root d v) (hk : k ≤ d) : ∃ u, HopDist succ root k u := by
  induction d generalizing v with
  | zero =>
    obtain rfl : k = 0 := by omega
    exact ⟨v, h⟩
  | succ d ih =>
    rcases Nat.lt_or_ge d k with hlt | hge
    · obtain rfl : k = d + 1 := by omega
      exact ⟨v, h⟩
    · cases h.1 with
      | tail hu hw =>
        refine ih ⟨hu, ?_⟩ hge
        intro n hn
        have := h.2 (n + 1) (.tail hn hw)
        omega

/-! ## Ways to the root -/

/-- The node `k` levels above. -/
def up (a : Arena α) : ℕ → ℕ → Option ℕ
  | 0, j => some j
  | k + 1, j => (a.parent j).bind (up a k)

omit [DecidableEq α] in
/-- Two ways up one behind the other. -/
theorem up_add (a : Arena α) (k m j : ℕ) : a.up (k + m) j = (a.up k j).bind (a.up m) := by
  induction k generalizing j with
  | zero => rw [Nat.zero_add, up, Option.bind_some]
  | succ k ih =>
    rw [Nat.succ_add, up, up]
    cases a.parent j with
    | none => rfl
    | some p => exact ih p

omit [DecidableEq α] in
/-- One step more up. -/
theorem up_succ (a : Arena α) (k j : ℕ) : a.up (k + 1) j = (a.up k j).bind a.parent := by
  rw [up_add]
  congr 1
  funext i
  rw [up]
  cases a.parent i <;> rfl

namespace Tree

variable {i j k k' : ℕ} {C : List ℕ}

omit [DecidableEq α] in
/-- A parent is older than its child. -/
theorem parent_lt (h : Tree root C a) (hj : j < a.size) (hp : a.parent j = some p) : p < j := by
  rcases Nat.eq_zero_or_pos j with rfl | hpos
  · rw [h.rootParent] at hp
    cases hp
  · obtain ⟨p', hlt, hp', -⟩ := h.parent j hpos hj
    obtain rfl : p' = p := Option.some.inj (hp'.symm.trans hp)
    exact hlt

omit [DecidableEq α] in
/-- Every step up leads to an older node. -/
theorem up_le (h : Tree root C a) (hj : j < a.size) (hup : a.up k j = some i) : i + k ≤ j := by
  induction k generalizing j with
  | zero => exact Nat.le_of_eq (Option.some.inj hup).symm
  | succ k ih =>
    obtain ⟨p, hp, hup⟩ := Option.bind_eq_some_iff.1 hup
    have hlt := h.parent_lt hj hp
    have := ih (by omega) hup
    omega

omit [DecidableEq α] in
/-- A node is above another at one distance only. -/
theorem up_unique (h : Tree root C a) (hj : j < a.size) (hup : a.up k j = some i)
    (hup' : a.up k' j = some i) : k = k' := by
  have hle {m n : ℕ} (hm : a.up m j = some i) (hn : a.up n j = some i) : n ≤ m := by
    by_contra hlt
    obtain ⟨c, rfl⟩ : ∃ c, n = m + (c + 1) := ⟨n - m - 1, by omega⟩
    rw [up_add, hm, Option.bind_some] at hn
    have hi : i < a.size := by
      have := h.up_le hj hm
      omega
    have := h.up_le hi hn
    omega
  exact Nat.le_antisymm (hle hup' hup) (hle hup hup')

omit [DecidableEq α] in
/-- The way up ends at the root. -/
theorem exists_up (h : Tree root C a) (hj : j < a.size) : ∃ k, a.up k j = some 0 := by
  induction j using Nat.strong_induction_on with
  | _ j ih =>
    rcases Nat.eq_zero_or_pos j with rfl | hpos
    · exact ⟨0, rfl⟩
    · obtain ⟨p, hlt, hp, -⟩ := h.parent j hpos hj
      obtain ⟨k, hk⟩ := ih p hlt (by omega)
      exact ⟨k + 1, by rw [up, hp, Option.bind_some, hk]⟩

end Tree

/-- Among the vertices next to the root from which one can go on to a vertex without a detour, the tree
reaches it by way of the node that was allocated last. -/
structure FirstHops (succ : α → List α) (next : List α) (k : ℕ) (C : List ℕ) (a : Arena α) : Prop where
  up : ∀ i ∈ C, ∃ x, a.up k i = some x ∧ a.parent x = some 0
  order : C.Pairwise fun i j => ∀ x y, a.up k i = some x → a.up k j = some y → y ≤ x
  first : ∀ j < a.size, ∀ d x, a.up d j = some x → a.parent x = some 0 →
    ∀ w < a.size, a.parent w = some 0 → Reach succ (a.id w) d (a.id j) → w ≤ x
  listed : ∀ i j, i < j → j < a.size → a.parent i = some 0 → a.parent j = some 0 →
    next.idxOf (a.id i) < next.idxOf (a.id j)

/-- The first level is reached by way of itself. -/
theorem Begun.firstHops {done : List α} (h : Begun succ root done a) :
    FirstHops succ done 0 (List.range' 1 (a.size - 1)).reverse a := by
  refine ⟨?_, ?_, ?_, ?_⟩
  · intro i hi
    obtain ⟨hpos, hlt⟩ := (mem_level i).1 hi
    exact ⟨i, rfl, h.parent i hpos hlt⟩
  · rw [List.pairwise_reverse]
    refine (List.pairwise_lt_range' (s := 1) (n := a.size - 1)).imp fun {i j} hij x y hx hy => ?_
    obtain rfl := Option.some.inj hx
    obtain rfl := Option.some.inj hy
    exact Nat.le_of_lt hij
  · intro j hj d x hup hx w hw hpar hr
    cases d with
    | zero =>
      obtain rfl := Option.some.inj hup
      exact Nat.le_of_eq (h.inj w hw j hj (reach_zero hr).symm)
    | succ d =>
      -- the root is the only node above another
      exfalso
      have hroot : a.up d 0 = some x := by
        rcases Nat.eq_zero_or_pos j with rfl | hpos
        · rw [Arena.up, h.rootParent] at hup
          cases hup
        · rwa [Arena.up, h.parent j hpos hj] at hup
      cases d with
      | zero =>
        obtain rfl := Option.some.inj hroot
        rw [h.rootParent] at hx
        cases hx
      | succ d =>
        rw [Arena.up, h.rootParent] at hroot
        cases hroot
  · intro i j hij hj hi _
    refine h.listed i j (Nat.pos_of_ne_zero ?_) hij hj
    rintro rfl
    rw [h.rootParent] at hi
    cases hi

/-- The next level is reached by way of the first hops of its parents. -/
theorem FirstHops.next {next : List α} {k : ℕ} {C C' : List ℕ} {a' : Arena α}
    (h : FirstHops succ next k C a)
    (ht : Tree root C a) (ht' : Tree root C' a') (hn : Tree.Next succ C a C' a')
    (hw : Within succ root (k + 1) C a) (hw' : Within succ root (k + 2) C' a') :
    FirstHops succ next (k + 1) C' a' := by
  have hup : ∀ d, ∀ j < a.size, a'.up d j = a.up d j := by
    intro d
    induction d with
    | zero => exact fun _ _ => rfl
    | succ d ih =>
      intro j hj
      rw [Arena.up, Arena.up, (hn.old j hj).1]
      cases hp : a.parent j with
      | none => rfl
      | some p =>
        have hlt := ht.parent_lt hj hp
        exact ih p (by omega)
  have hnew : ∀ i ∈ C', ∃ p ∈ C, p < a.size ∧ a'.parent i = some p ∧ a'.up (k + 1) i = a.up k p ∧
      a'.id i ∈ succ (a.id p) := by
    intro i hi
    obtain ⟨-, p, hp, hpar, hsucc⟩ := hn.new i hi
    have hlt := (ht.mem p hp).2
    refine ⟨p, hp, hlt, hpar, ?_, hsucc⟩
    rw [Arena.up, hpar]
    exact hup k p hlt
  have htop : ∀ w < a'.size, a'.parent w = some 0 → w < a.size := by
    intro w hwlt hpar
    by_contra hge
    obtain ⟨p, hp, -, hpar', -⟩ := hnew w ((hn.mem w).2 ⟨Nat.not_lt.1 hge, hwlt⟩)
    obtain rfl : 0 = p := Option.some.inj (hpar.symm.trans hpar')
    exact absurd (ht.mem 0 hp).1 (Nat.lt_irrefl 0)
  refine ⟨?_, ?_, ?_, ?_⟩
  · intro i hi
    obtain ⟨p, hp, hlt, -, hupi, -⟩ := hnew i hi
    obtain ⟨x, hx, hpar⟩ := h.up p hp
    have hxlt : x < a.size := by
      have := ht.up_le hlt hx
      omega
    exact ⟨x, hupi.trans hx, (hn.old x hxlt).1.trans hpar⟩
  · have hsorted := hn.sorted (fun p q => ∀ x y, a.up k p = some x → a.up k q = some y → y ≤ x)
      (fun p _ x y hx hy => Nat.le_of_eq (Option.some.inj (hy.symm.trans hx))) h.order
    refine hsorted.imp_of_mem fun {i j} hi hj hij x y hx hy => ?_
    obtain ⟨p, -, -, hpar, hupi, -⟩ := hnew i hi
    obtain ⟨q, -, -, hpar', hupj, -⟩ := hnew j hj
    exact hij p q hpar hpar' x y (hupi.symm.trans hx) (hupj.symm.trans hy)
  · intro j hj d x hupj hx w hwlt hpar hr
    have hw₀ := htop w hwlt hpar
    rw [(hn.old w hw₀).1] at hpar
    rw [(hn.old w hw₀).2] at hr
    by_cases hold : j < a.size
    · rw [hup d j hold] at hupj
      have hxlt : x < a.size := by
        have := ht.up_le hold hupj
        omega
      rw [(hn.old x hxlt).1] at hx
      rw [(hn.old j hold).2] at hr
      exact h.first j hold d x hupj hx w hw₀ hpar hr
    · have hmem := (hn.mem j).2 ⟨Nat.not_lt.1 hold, hj⟩
      obtain ⟨p, hp, hplt, hparj, hupp, -⟩ := hnew j hmem
      obtain ⟨x', hx', hparx'⟩ := h.up p hp
      have hx'lt : x' < a.size := by
        have := ht.up_le hplt hx'
        omega
      obtain rfl : d = k + 1 := by
        have hroot : a'.up (d + 1) j = some 0 := by rw [Arena.up_succ, hupj, Option.bind_some, hx]
        have hroot' : a'.up (k + 1 + 1) j = some 0 := by
          rw [Arena.up_succ, hupp, hx', Option.bind_some, (hn.old x' hx'lt).1, hparx']
        exact Nat.succ.inj (ht'.up_unique hj hroot hroot')
      obtain rfl : x' = x := Option.some.inj (hx'.symm.trans (hupp.symm.trans hupj))
      cases hr with
      | tail hu hsucc =>
        rename_i u
        -- the vertex before lies on the level before
        have hroot : Reach succ root 1 (a.id w) := by
          have hid := (hw.depth w hw₀ 0 hpar).1
          rw [ht.rootId] at hid
          exact .tail .refl hid
        have hdist : HopDist succ root (k + 1) u := by
          refine ⟨Nat.add_comm 1 k ▸ hroot.trans hu, fun n hn => ?_⟩
          have := (hw'.here j hmem).2 (n + 1) (.tail hn hsucc)
          omega
        obtain ⟨q, hq, rfl⟩ := hw.all u hdist
        obtain ⟨y, hy, hpary⟩ := h.up q hq
        have hwy := h.first q (ht.mem q hq).2 k y hy hpary w hw₀ hpar hu
        have hyx := hn.earliest (fun p q => ∀ x y, a.up k p = some x → a.up k q = some y → y ≤ x)
          (fun p _ x y hx hy => Nat.le_of_eq (Option.some.inj (hy.symm.trans hx))) h.order j hmem p hparj q hq
          hsucc x' y hx' hy
        exact Nat.le_trans hwy hyx
  · intro i j hij hj hpar hpar'
    have hi₀ := htop i (Nat.lt_trans hij hj) hpar
    have hj₀ := htop j hj hpar'
    rw [(hn.old i hi₀).1] at hpar
    rw [(hn.old j hj₀).1] at hpar'
    rw [(hn.old i hi₀).2, (hn.old j hj₀).2]
    exact h.listed i j hij hj₀ hpar hpar'

/-! ## All levels -/

/-- The finished tree holds exactly the vertices that can be reached, each below a vertex that is one hop
nearer. -/
structure Complete (succ : α → List α) (root : α) (a : Arena α) : Prop extends Tree root [] a where
  reach : ∀ v, v ∈ a.used ↔ ∃ m, Reach succ root m v
  depth : ∀ i < a.size, ∀ p, a.parent i = some p →
    a.id i ∈ succ (a.id p) ∧ ∃ d, HopDist succ root d (a.id p) ∧ HopDist succ root (d + 1) (a.id i)
  firstHop : ∀ j < a.size, ∀ d x, a.up d j = some x → a.parent x = some 0 →
    ∀ w < a.size, a.parent w = some 0 → Reach succ (a.id w) d (a.id j) → w ≤ x
  listed : ∀ i j, i < j → j < a.size → a.parent i = some 0 → a.parent j = some 0 →
    (succ root).idxOf (a.id i) < (succ root).idxOf (a.id j)

/-- Behind an empty level there is nothing. -/
theorem Within.complete {k : ℕ} (h : Within succ root (k + 1) [] a) (ht : Tree root [] a)
    (hfirst : FirstHops succ (succ root) k [] a) : Complete succ root a := by
  refine ⟨ht, ?_, h.depth, hfirst.first, hfirst.listed⟩
  intro v
  rw [h.used]
  constructor
  · rintro ⟨m, -, hr⟩
    exact ⟨m, hr⟩
  · rintro ⟨m, hr⟩
    obtain ⟨d, -, hd⟩ := hr.hopDist
    rcases Nat.lt_or_ge (k + 1) d with hkd | hdk
    · obtain ⟨u, hu⟩ := exists_hopDist hd (Nat.le_of_lt hkd)
      obtain ⟨i, hi, -⟩ := h.all u hu
      exact absurd hi (by simp)
    · exact ⟨d, hdk, hd.1⟩

omit [DecidableEq α] in
/-- There are no more nodes than vertices that can be reached. -/
theorem Tree.size_le {C : List ℕ} (h : Tree root C a) {U : List α} (hU : ∀ v ∈ a.used, v ∈ U) :
    a.size ≤ U.length := by
  have hnodup : ((List.range a.size).map a.id).Nodup := by
    refine (List.nodup_map_iff_inj_on List.nodup_range).2 ?_
    intro i hi j hj he
    exact h.inj i (List.mem_range.1 hi) j (List.mem_range.1 hj) he
  have hsub : (List.range a.size).map a.id ⊆ U := by
    intro v hv
    obtain ⟨i, hi, rfl⟩ := List.mem_map.1 hv
    exact hU _ ((h.used _).2 ⟨i, List.mem_range.1 hi, rfl⟩)
  have := (List.subperm_of_subset hnodup hsub).length_le
  rwa [List.length_map, List.length_range] at this

/-- **The levels.** With enough fuel the tree is complete. -/
theorem levels_spec {U : List α} (hU : ∀ m v, Reach succ root m v → v ∈ U) {fuel : ℕ}
    (hfuel : U.length ≤ fuel) (hlists : ∀ v, v ≠ root → lists v = succ v) {k : ℕ} {C : List ℕ}
    (ht : Tree root C a) (hw : Within succ root (k + 1) C a) (hf : FirstHops succ (succ root) k C a)
    (hn : C = [] ∨ U.length < n + a.size) :
    ∃ a', Arena.levels lists fuel n a C.head? = some a' ∧ Complete succ root a' := by
  have hsub {k : ℕ} {C : List ℕ} {a : Arena α} (hw : Within succ root k C a) : ∀ v ∈ a.used, v ∈ U := by
    intro v hv
    obtain ⟨m, -, hr⟩ := (hw.used v).1 hv
    exact hU m v hr
  induction n generalizing k C a with
  | zero =>
    have hsize := ht.size_le (hsub hw)
    rcases hn with rfl | hlt
    · exact ⟨a, rfl, hw.complete ht hf⟩
    · omega
  | succ n ih =>
    by_cases hC : C = []
    · subst hC
      exact ⟨a, rfl, hw.complete ht hf⟩
    · have hsize := ht.size_le (hsub hw)
      obtain ⟨s, C', hlevel, ht', hnext, p, q, hp, hq, hfc⟩ := ht.round hC (Nat.le_trans hsize hfuel)
        hlists
      have hw' := hw.next ht ht' hnext
      have hf' := hf.next ht ht' hnext hw hw'
      obtain ⟨a', hrun, hcomplete⟩ := ih ht' hw' hf' (by
        by_cases hC' : C' = []
        · exact .inl hC'
        · refine .inr ?_
          have hpos := List.length_pos_iff.2 hC'
          have hs := hnext.size
          have := hn.resolve_left hC
          omega)
      refine ⟨a', ?_, hcomplete⟩
      rw [List.head?_eq_some_head hC] at hlevel ⊢
      unfold levels
      rw [hlevel, Option.bind_some, hp, Option.bind_some, hq, Option.bind_some, hfc, Option.bind_some]
      exact hrun

/-- **Building.** With at least as much fuel as there are vertices, the tree is complete. -/
theorem build_spec {U : List α} (hU : ∀ m v, Reach succ root m v → v ∈ U) {fuel : ℕ}
    (hfuel : U.length ≤ fuel) (hlists : ∀ v, v ≠ root → lists v = succ v) :
    ∃ a, build lists (succ root) fuel root = some a ∧ Complete succ root a := by
  have hsingle : Begun succ root [] (single root) := begun_single root
  have hbegun := begun_foldl (l := succ root) hsingle
  rw [List.nil_append] at hbegun
  have htree := hbegun.tree
  have hn : U.length < fuel + ((succ root).foldl addFirst (single root)).size := by
    have := hbegun.pos
    omega
  obtain ⟨a, ha, hcomplete⟩ := levels_spec hU hfuel hlists htree hbegun.within
    hbegun.firstHops (.inr hn)
  refine ⟨a, ?_, hcomplete⟩
  unfold build
  dsimp only
  rw [hbegun.chain.head_eq]
  exact ha

/-! ## Preorder -/

namespace Tree

variable {i j k k' fuel : ℕ}

omit [DecidableEq α] in
/-- The children of a node, each once. -/
theorem mem_kids (h : Tree root [] a) (hp : p < a.size) (hfuel : a.size ≤ fuel) :
    (a.kids p fuel (a.child p)).Nodup ∧
      ∀ j, j ∈ a.kids p fuel (a.child p) ↔ j < a.size ∧ a.parent j = some p := by
  obtain ⟨ks, hnodup, hkids, hmem⟩ := h.kids p hp (by simp)
  have hlen : ks.length ≤ fuel := by
    have hsub : ks ⊆ List.range a.size := fun j hj => List.mem_range.2 ((hmem j).1 hj).1
    have := (List.subperm_of_subset hnodup hsub).length_le
    rw [List.length_range] at this
    omega
  rw [hkids.kids hlen]
  exact ⟨hnodup, hmem⟩

omit [DecidableEq α] in
/-- All siblings of the first child of the root are its children, the newest first. -/
theorem walk_top (h : Tree root [] a) (hfuel : a.size ≤ fuel) :
    walk a.sibling fuel (a.child 0) = a.kids 0 fuel (a.child 0) ∧
      (a.kids 0 fuel (a.child 0)).Pairwise fun i j => j < i := by
  obtain ⟨ks, hchain, hks, hsorted⟩ := h.top
  have hkids : a.Kids 0 (a.child 0) ks :=
    kids_of_chain (by rw [List.append_nil]; exact hchain) (fun k hk => (hks k hk).2)
      fun r hr => absurd hr List.not_mem_nil
  have hlen : ks.length ≤ fuel := by
    have hsub : ks ⊆ List.range a.size := fun k hk => List.mem_range.2 (hks k hk).1
    have := (List.subperm_of_subset hchain.nodup hsub).length_le
    rw [List.length_range] at this
    omega
  rw [hchain.walk hlen, hkids.kids hlen]
  exact ⟨rfl, hsorted⟩

omit [DecidableEq α] in
/-- The walk over a subtree finds what is below its root, with its depth. -/
theorem mem_preorder (h : Tree root [] a) (hfuel : a.size ≤ fuel) (hi : i < a.size) (hn : a.size ≤ n + i)
    (j e : ℕ) :
    (j, e) ∈ a.preorder fuel n i d ↔ j < a.size ∧ ∃ k, e = d + k ∧ a.up k j = some i := by
  induction n generalizing i d with
  | zero => omega
  | succ n ih =>
    obtain ⟨-, hkids⟩ := h.mem_kids hi hfuel
    rw [preorder, List.mem_cons, List.mem_flatMap]
    constructor
    · rintro (heq | ⟨c, hc, hmem⟩)
      · obtain ⟨rfl, rfl⟩ := Prod.ext_iff.1 heq
        exact ⟨hi, 0, rfl, rfl⟩
      · obtain ⟨hclt, hpar⟩ := (hkids c).1 hc
        have hci := h.parent_lt hclt hpar
        obtain ⟨hj, k, rfl, hup⟩ := (ih hclt (by omega)).1 hmem
        refine ⟨hj, k + 1, by omega, ?_⟩
        rw [up_succ, hup, Option.bind_some, hpar]
    · rintro ⟨hj, k, rfl, hup⟩
      cases k with
      | zero =>
        obtain rfl : j = i := Option.some.inj hup
        exact .inl rfl
      | succ k =>
        rw [up_succ] at hup
        obtain ⟨c, hupc, hpar⟩ := Option.bind_eq_some_iff.1 hup
        have hcj := h.up_le hj hupc
        have hclt : c < a.size := by omega
        have hci := h.parent_lt hclt hpar
        exact .inr ⟨c, (hkids c).2 ⟨hclt, hpar⟩, (ih hclt (by omega)).2 ⟨hj, k, by omega, hupc⟩⟩

omit [DecidableEq α] in
/-- The subtrees of two children have no node in common. -/
theorem kids_disjoint (h : Tree root [] a) (hfuel : a.size ≤ fuel) {c c' : ℕ} (hc : c < a.size)
    (hc' : c' < a.size) (hn : a.size ≤ n + c) (hn' : a.size ≤ n + c') (hpar : a.parent c = some i)
    (hpar' : a.parent c' = some i) {e e' : ℕ} (hj : (j, e) ∈ a.preorder fuel n c d)
    (hj' : (j, e') ∈ a.preorder fuel n c' d) : c = c' := by
  obtain ⟨hjlt, k, -, hup⟩ := (h.mem_preorder hfuel hc hn j e).1 hj
  obtain ⟨-, k', -, hup'⟩ := (h.mem_preorder hfuel hc' hn' j e').1 hj'
  have hupi : a.up (k + 1) j = some i := by rw [up_succ, hup, Option.bind_some, hpar]
  have hupi' : a.up (k' + 1) j = some i := by rw [up_succ, hup', Option.bind_some, hpar']
  obtain rfl : k = k' := Nat.succ.inj (h.up_unique hjlt hupi hupi')
  exact Option.some.inj (hup.symm.trans hup')

omit [DecidableEq α] in
/-- The walk over a subtree finds everything once. -/
theorem nodup_preorder (h : Tree root [] a) (hfuel : a.size ≤ fuel) (hi : i < a.size)
    (hn : a.size ≤ n + i) : ((a.preorder fuel n i d).map Prod.fst).Nodup := by
  induction n generalizing i d with
  | zero => omega
  | succ n ih =>
    obtain ⟨hnodup, hkids⟩ := h.mem_kids hi hfuel
    have hbound {c : ℕ} (hc : c ∈ a.kids i fuel (a.child i)) : c < a.size ∧ a.parent c = some i ∧ i < c := by
      obtain ⟨hclt, hpar⟩ := (hkids c).1 hc
      exact ⟨hclt, hpar, h.parent_lt hclt hpar⟩
    rw [preorder, List.map_cons, List.map_flatMap, List.nodup_cons]
    constructor
    · intro hmem
      obtain ⟨c, hc, hmem⟩ := List.mem_flatMap.1 hmem
      obtain ⟨⟨j, e⟩, hje, hij⟩ := List.mem_map.1 hmem
      obtain rfl : j = i := hij
      obtain ⟨hclt, -, hic⟩ := hbound hc
      obtain ⟨-, k, -, hup⟩ := (h.mem_preorder hfuel hclt (by omega) j e).1 hje
      have := h.up_le hi hup
      omega
    · refine List.nodup_flatMap.2 ⟨?_, hnodup.pairwise_of_forall_ne ?_⟩
      · intro c hc
        obtain ⟨hclt, -, hic⟩ := hbound hc
        exact ih hclt (by omega)
      · intro c hc c' hc' hne j hj hj'
        obtain ⟨⟨x, e⟩, hje, rfl⟩ := List.mem_map.1 hj
        obtain ⟨⟨x', e'⟩, hje', hxx⟩ := List.mem_map.1 hj'
        obtain rfl : x' = x := hxx
        obtain ⟨hclt, hpar, hic⟩ := hbound hc
        obtain ⟨hclt', hpar', hic'⟩ := hbound hc'
        exact hne (h.kids_disjoint hfuel hclt hclt' (by omega) (by omega) hpar hpar' hje hje')

end Tree

/-- What a walk over the tree finds, with the depths. -/
def contents (a : Arena α) : List (α × ℕ) :=
  (a.preorder a.size a.size 0 0).map fun x => (a.id x.1, x.2)

namespace Complete

variable {j k : ℕ}

/-- The depth of a node is the distance of its vertex. -/
theorem hopDist_of_up (h : Complete succ root a) (hj : j < a.size) (hup : a.up k j = some 0) :
    HopDist succ root k (a.id j) := by
  induction k generalizing j with
  | zero =>
    obtain rfl : j = 0 := Option.some.inj hup
    rw [h.rootId]
    exact ⟨.refl, fun _ _ => Nat.zero_le _⟩
  | succ k ih =>
    obtain ⟨p, hp, hup⟩ := Option.bind_eq_some_iff.1 hup
    have hlt := h.parent_lt hj hp
    obtain ⟨-, d, hd, hd'⟩ := h.depth j hj p hp
    obtain rfl := (ih (by omega) hup).unique hd
    exact hd'

/-- The way up is a way of the graph. -/
theorem reach_of_up {i : ℕ} (h : Complete succ root a) (hj : j < a.size) (hup : a.up k j = some i) :
    Reach succ (a.id i) k (a.id j) := by
  induction k generalizing j with
  | zero =>
    obtain rfl : j = i := Option.some.inj hup
    exact .refl
  | succ k ih =>
    obtain ⟨p, hp, hup⟩ := Option.bind_eq_some_iff.1 hup
    have hlt := h.parent_lt hj hp
    exact .tail (ih (by omega) hup) (h.depth j hj p hp).1

/-- Every vertex that can be reached has a node. -/
theorem exists_node {d : ℕ} (h : Complete succ root a) (hv : HopDist succ root d v) :
    ∃ j < a.size, a.id j = v ∧ a.up d j = some 0 := by
  obtain ⟨j, hj, rfl⟩ := (h.used v).1 ((h.reach v).2 ⟨d, hv.1⟩)
  obtain ⟨k, hup⟩ := h.exists_up hj
  obtain rfl := (h.hopDist_of_up hj hup).unique hv
  exact ⟨j, hj, rfl, hup⟩

/-- **Contents.** The tree holds each vertex that can be reached once, at its distance, and no other. -/
theorem contents_spec (h : Complete succ root a) :
    (a.contents.map Prod.fst).Nodup ∧ ∀ v d, (v, d) ∈ a.contents ↔ HopDist succ root d v := by
  have hmem (j e : ℕ) := h.mem_preorder (d := 0) (n := a.size) (Nat.le_refl _) h.pos (Nat.le_refl _) j e
  constructor
  · have hmap : a.contents.map Prod.fst = ((a.preorder a.size a.size 0 0).map Prod.fst).map a.id := by
      unfold contents
      rw [List.map_map, List.map_map]
      rfl
    rw [hmap]
    refine (List.nodup_map_iff_inj_on (h.nodup_preorder (Nat.le_refl _) h.pos (Nat.le_refl _))).2 ?_
    intro i hi j hj he
    obtain ⟨⟨i, e⟩, hie, rfl⟩ := List.mem_map.1 hi
    obtain ⟨⟨j, e'⟩, hje, rfl⟩ := List.mem_map.1 hj
    exact h.inj i ((hmem i e).1 hie).1 j ((hmem j e').1 hje).1 he
  · intro v d
    unfold contents
    rw [List.mem_map]
    constructor
    · rintro ⟨⟨j, e⟩, hje, heq⟩
      obtain ⟨rfl, rfl⟩ := Prod.ext_iff.1 heq
      obtain ⟨hj, k, hk, hup⟩ := (hmem j e).1 hje
      obtain rfl : k = e := by omega
      exact h.hopDist_of_up hj hup
    · intro hv
      obtain ⟨j, hj, rfl, hup⟩ := h.exists_node hv
      exact ⟨(j, d), (hmem j d).2 ⟨hj, d, by omega, hup⟩, rfl⟩

end Complete

end Arena

end LevelTree
