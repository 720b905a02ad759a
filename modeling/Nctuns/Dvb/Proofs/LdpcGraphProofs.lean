import Mathlib.Data.List.Perm.Basic
import Mathlib.Data.Nat.ModEq
import Nctuns.Dvb.Ldpc
import Nctuns.Lib.Tally

/-!
# The graphs of the LDPC codes

`init` builds the graph of each code, and no assertion fails on the way: an address of the tables reaches
each c-node of its residue modulo `_q` once, so that the degrees of the c-nodes can be counted in the
tables.
-/

namespace Dvb

namespace Ldpc

variable {l : Ldpc} {halt : LdpcHalt} {deg v : ℕ} {rows : List (List ℕ)} {edges : List (ℕ × ℕ)}

/-! ### Connections -/

theorem connect_ok {node neighbour : ℕ} (h : (rows.getD node []).length < deg) :
    connect halt deg rows node neighbour = .ok (rows.modify node (· ++ [neighbour])) := if_pos h

/-- The rows with the neighbours of some edges. -/
def attach (rows : List (List ℕ)) (edges : List (ℕ × ℕ)) : List (List ℕ) :=
  edges.foldl (fun rows e => rows.modify e.1 (· ++ [e.2])) rows

theorem attach_cons (e : ℕ × ℕ) :
    attach rows (e :: edges) = attach (rows.modify e.1 (· ++ [e.2])) edges := rfl

theorem attach_append (edges' : List (ℕ × ℕ)) :
    attach rows (edges ++ edges') = attach (attach rows edges) edges' := List.foldl_append

/-- Edges leave the number of rows. -/
theorem length_attach : (attach rows edges).length = rows.length := by
  induction edges generalizing rows with
  | nil => rfl
  | cons e edges ih => rw [attach_cons, ih, List.length_modify]

/-- The other rows. -/
theorem getD_modify_ne {w neighbour : ℕ} (h : w ≠ v) :
    (rows.modify w (· ++ [neighbour])).getD v [] = rows.getD v [] := by
  rw [List.getD_eq_getElem?_getD, List.getElem?_modify_ne _ _ h, ← List.getD_eq_getElem?_getD]

/-- The row itself. -/
theorem getD_modify_self {neighbour : ℕ} (h : v < rows.length) :
    (rows.modify v (· ++ [neighbour])).getD v [] = rows.getD v [] ++ [neighbour] := by
  rw [List.getD_eq_getElem?_getD, List.getElem?_modify_eq, List.getD_eq_getElem?_getD,
    List.getElem?_eq_getElem h]
  rfl

/-- A row grows by at most one. -/
theorem length_getD_modify (rows : List (List ℕ)) (v neighbour : ℕ) :
    ((rows.modify v (· ++ [neighbour])).getD v []).length ≤ (rows.getD v []).length + 1 := by
  by_cases h : v < rows.length
  · rw [getD_modify_self h, List.length_append]
    rfl
  · rw [List.getD_eq_getElem?_getD, List.getElem?_eq_none (by rw [List.length_modify]; omega)]
    exact Nat.zero_le _

/-- A row gets its own edges. -/
theorem getD_attach (h : v < rows.length) :
    (attach rows edges).getD v [] =
      rows.getD v [] ++ (edges.filter fun e => e.1 = v).map Prod.snd := by
  induction edges generalizing rows with
  | nil => simp [attach]
  | cons e edges ih =>
    rw [attach_cons, ih (by rwa [List.length_modify])]
    by_cases he : e.1 = v
    · subst he
      rw [getD_modify_self h, List.filter_cons_of_pos (by simp), List.map_cons, List.append_assoc]
      rfl
    · rw [getD_modify_ne he, List.filter_cons_of_neg (by simpa using he)]

/-- A row without edges. -/
theorem getD_attach_of_ne (h : ∀ e ∈ edges, e.1 ≠ v) :
    (attach rows edges).getD v [] = rows.getD v [] := by
  induction edges generalizing rows with
  | nil => rfl
  | cons e edges ih =>
    rw [attach_cons, ih fun e' he' => h e' (List.mem_cons_of_mem _ he'),
      getD_modify_ne (h e List.mem_cons_self)]

/-! ### The loops of `_init_decoder` -/

/-- The node of an edge has a free place when there is room for all edges. -/
theorem free_of_room (node : ℕ × ℕ → ℕ) {rows : List (List ℕ)} {deg : ℕ} {e : ℕ × ℕ} {edges : List (ℕ × ℕ)}
    (h : (rows.getD (node e) []).length + (e :: edges).countP (fun e' => node e' = node e) ≤ deg) :
    (rows.getD (node e) []).length < deg := by
  rw [List.countP_cons_of_pos (by simp)] at h
  omega

/-- Once the edge has its place, there is room for the other ones. -/
theorem room_modify (node : ℕ × ℕ → ℕ) {rows : List (List ℕ)} {deg : ℕ} {e : ℕ × ℕ} {edges : List (ℕ × ℕ)}
    (neighbour : ℕ) {x : ℕ}
    (h : (rows.getD x []).length + (e :: edges).countP (fun e' => node e' = x) ≤ deg) :
    ((rows.modify (node e) (· ++ [neighbour])).getD x []).length + edges.countP (fun e' => node e' = x) ≤
      deg := by
  by_cases hx : node e = x
  · subst hx
    rw [List.countP_cons_of_pos (by simp)] at h
    have hlen := length_getD_modify rows (node e) neighbour
    omega
  · rw [List.countP_cons_of_neg (by simpa using hx)] at h
    rwa [getD_modify_ne hx]

/-- The edges of the information bits, when every node has room for its own. -/
theorem foldlM_informationBit (edges : List (ℕ × ℕ))
    (hv : ∀ v, (l._cnode_from.getD v []).length + edges.countP (fun e => e.1 = v) ≤ l._vnode_deg)
    (hc : ∀ c, (l._vnode_from.getD c []).length + edges.countP (fun e => e.2 = c) ≤ l._cnode_deg) :
    edges.foldlM informationBit l = .ok { l with
      _cnode_from := attach l._cnode_from edges
      _vnode_from := attach l._vnode_from (edges.map Prod.swap) } := by
  induction edges generalizing l with
  | nil => rfl
  | cons e edges ih =>
    have hstep : informationBit l e = .ok { l with
        _cnode_from := l._cnode_from.modify e.1 (· ++ [e.2])
        _vnode_from := l._vnode_from.modify e.2 (· ++ [e.1]) } := by
      rw [informationBit, connect_ok (free_of_room Prod.fst (hv e.1)),
        connect_ok (free_of_room Prod.snd (hc e.2))]
      rfl
    rw [List.foldlM_cons, hstep]
    exact ih (fun v => room_modify Prod.fst e.2 (hv v)) fun c => room_modify Prod.snd e.1 (hc c)

/-- The edges of a parity bit, from it and to its c-node. -/
def parityEdges (k p j : ℕ) : List (ℕ × ℕ) :=
  if j ≠ p - 1 then [(k + j, j), (k + j, j + 1)] else [(k + j, j)]

/-- The edges of a check to the parity bits, its own last. -/
def backEdges (k j : ℕ) : List (ℕ × ℕ) := if j ≠ 0 then [(j, k + j - 1), (j, k + j)] else [(j, k + j)]

/-- The edges of a parity bit. -/
theorem parityVnode_ok {j : ℕ} (h : (l._cnode_from.getD (l._k + j) []).length + 2 ≤ l._vnode_deg) :
    l.parityVnode (l._k + j) = .ok (attach l._cnode_from (parityEdges l._k l._p j)) := by
  have hlen := length_getD_modify l._cnode_from (l._k + j) j
  have hone : (l._cnode_from.getD (l._k + j) []).length < l._vnode_deg := by omega
  unfold parityVnode parityEdges
  simp only [Nat.add_sub_cancel_left, connect_ok hone]
  show (if j ≠ l._p - 1 then _ else _) = _
  split
  · exact connect_ok (by omega)
  · rfl

/-- The edges of a check to its parity bits. -/
theorem parityCnode_ok {j : ℕ} (h : (l._vnode_from.getD j []).length + 2 ≤ l._cnode_deg) :
    l.parityCnode (l._k + j) = .ok (attach l._vnode_from (backEdges l._k j)) := by
  have hlen := length_getD_modify l._vnode_from j (l._k + j - 1)
  have hone : ∀ v, connect .assertion l._cnode_deg l._vnode_from j v =
      .ok (l._vnode_from.modify j (· ++ [v])) := fun v => connect_ok (by omega)
  unfold parityCnode backEdges
  simp only [Nat.add_sub_cancel_left, hone]
  by_cases hj : j = 0
  · rw [if_neg (by omega), if_neg (by omega)]
    rfl
  · rw [if_pos (by omega), if_pos hj]
    exact connect_ok (by omega)

/-- **A parity bit** with room in its rows. -/
theorem parityBit_ok {j : ℕ} (hv : (l._cnode_from.getD (l._k + j) []).length + 2 ≤ l._vnode_deg)
    (hc : (l._vnode_from.getD j []).length + 2 ≤ l._cnode_deg) :
    parityBit l (l._k + j) = .ok { l with
      _cnode_from := attach l._cnode_from (parityEdges l._k l._p j)
      _vnode_from := attach l._vnode_from (backEdges l._k j) } := by
  rw [parityBit, parityVnode_ok hv, parityCnode_ok hc]
  rfl

/-- The edges of a parity bit are its own. -/
theorem fst_parityEdges {k p j : ℕ} : ∀ e ∈ parityEdges k p j, e.1 = k + j := by
  unfold parityEdges
  split <;> simp

/-- The edges of a check are its own. -/
theorem fst_backEdges {k j : ℕ} : ∀ e ∈ backEdges k j, e.1 = j := by
  unfold backEdges
  split <;> simp

/-- **The parity bits** one behind the other. -/
theorem foldlM_parityBit (js : List ℕ) (hjs : js.Nodup)
    (hv : ∀ j ∈ js, (l._cnode_from.getD (l._k + j) []).length + 2 ≤ l._vnode_deg)
    (hc : ∀ j ∈ js, (l._vnode_from.getD j []).length + 2 ≤ l._cnode_deg) :
    (js.map (l._k + ·)).foldlM parityBit l = .ok { l with
      _cnode_from := attach l._cnode_from (js.flatMap (parityEdges l._k l._p))
      _vnode_from := attach l._vnode_from (js.flatMap (backEdges l._k)) } := by
  induction js generalizing l with
  | nil => rfl
  | cons j js ih =>
    obtain ⟨hj, hjs⟩ := List.nodup_cons.1 hjs
    have hne : ∀ j' ∈ js, j ≠ j' := by
      rintro j' hj' rfl
      exact hj hj'
    rw [List.map_cons, List.foldlM_cons, parityBit_ok (hv j List.mem_cons_self) (hc j List.mem_cons_self),
      List.flatMap_cons, attach_append, List.flatMap_cons, attach_append]
    refine ih hjs (fun j' hj' => ?_) fun j' hj' => ?_
    · show ((attach l._cnode_from _).getD (l._k + j') []).length + 2 ≤ l._vnode_deg
      rw [getD_attach_of_ne fun e he heq => hne j' hj' (by rw [fst_parityEdges e he] at heq; omega)]
      exact hv j' (List.mem_cons_of_mem _ hj')
    · show ((attach l._vnode_from _).getD j' []).length + 2 ≤ l._cnode_deg
      rw [getD_attach_of_ne fun e he heq => hne j' hj' (by rwa [fst_backEdges e he] at heq)]
      exact hc j' (List.mem_cons_of_mem _ hj')

/-! ### Degrees -/

/-- Nothing is counted where nothing is counted in any part. -/
theorem countP_flatMap_eq_zero {α β : Type*} {p : β → Bool} {f : α → List β} {as : List α}
    (h : ∀ a ∈ as, (f a).countP p = 0) : (as.flatMap f).countP p = 0 := by
  rw [List.countP_eq_zero]
  intro b hb
  obtain ⟨a, ha, hb⟩ := List.mem_flatMap.1 hb
  exact List.countP_eq_zero.1 (h a ha) b hb

/-- At most one element of a list without duplicates contributes. -/
theorem countP_flatMap_le {α β : Type*} {p : β → Bool} {f : α → List β} {as : List α} (a : α)
    (has : as.Nodup) (h : ∀ b ∈ as, b ≠ a → (f b).countP p = 0) :
    (as.flatMap f).countP p ≤ (f a).countP p := by
  induction as with
  | nil => exact Nat.zero_le _
  | cons b as ih =>
    obtain ⟨hb, has⟩ := List.nodup_cons.1 has
    have htail := fun c hc => h c (List.mem_cons_of_mem _ hc)
    rw [List.flatMap_cons, List.countP_append]
    by_cases hba : b = a
    · subst hba
      have hzero : (as.flatMap f).countP p = 0 :=
        countP_flatMap_eq_zero fun c hc => htail c hc (by rintro rfl; exact hb hc)
      omega
    · rw [h b List.mem_cons_self hba, Nat.zero_add]
      exact ih has htail

/-- Counts that are at most others, part by part. -/
theorem countP_flatMap_mono {α β γ : Type*} {p : β → Bool} {q : γ → Bool} {f : α → List β}
    {g : α → List γ} {as : List α} (h : ∀ a ∈ as, (f a).countP p ≤ (g a).countP q) :
    (as.flatMap f).countP p ≤ (as.flatMap g).countP q := by
  induction as with
  | nil => exact Nat.le_refl _
  | cons a as ih =>
    rw [List.flatMap_cons, List.countP_append, List.flatMap_cons, List.countP_append]
    exact Nat.add_le_add (h a List.mem_cons_self) (ih fun b hb => h b (List.mem_cons_of_mem _ hb))

/-- An information bit has an edge for each address of its group. -/
theorem countP_fst_informationEdges (l : Ldpc) (v : ℕ) :
    l.informationEdges.countP (fun e => e.1 = v) ≤
      (l._acc_addr.getD (v / LDPC_BIT_PER_GROUP) []).length := by
  have hzero : ∀ g m, LDPC_BIT_PER_GROUP * g + m ≠ v →
      ((l._acc_addr.getD g []).map fun x =>
        (LDPC_BIT_PER_GROUP * g + m, (x + m * l._q) % l._p)).countP (fun e => e.1 = v) = 0 := by
    intro g m hne
    rw [List.countP_eq_zero]
    rintro e he
    obtain ⟨x, -, rfl⟩ := List.mem_map.1 he
    simpa using hne
  refine (countP_flatMap_le (v / LDPC_BIT_PER_GROUP) List.nodup_range fun g _ hg => ?_).trans
    ((countP_flatMap_le (v % LDPC_BIT_PER_GROUP) List.nodup_range fun m _ hm => ?_).trans
      (List.countP_le_length.trans (List.length_map _).le))
  · refine countP_flatMap_eq_zero fun m hm => hzero g m fun heq => hg ?_
    have hm := List.mem_range.1 hm
    rw [← heq, Nat.mul_add_div (by decide), Nat.div_eq_of_lt hm, Nat.add_zero]
  · refine hzero _ m fun heq => hm ?_
    have := Nat.div_add_mod v LDPC_BIT_PER_GROUP
    omega

/-- An address reaches a c-node of its residue once, and no other. -/
theorem countP_reached {p q : ℕ} (hq : 0 < q) (hp : p = LDPC_BIT_PER_GROUP * q) (x c : ℕ) :
    (List.range LDPC_BIT_PER_GROUP).countP (fun m => (x + m * q) % p = c) ≤
      if x % q = c % q then 1 else 0 := by
  subst hp
  by_cases hnone : (List.range LDPC_BIT_PER_GROUP).countP
      (fun m => (x + m * q) % (LDPC_BIT_PER_GROUP * q) = c) = 0
  · rw [hnone]
    exact Nat.zero_le _
  obtain ⟨m, hm, hx⟩ := List.countP_pos_iff.1 (Nat.pos_of_ne_zero hnone)
  have hm := List.mem_range.1 hm
  have hx : (x + m * q) % (LDPC_BIT_PER_GROUP * q) = c := of_decide_eq_true hx
  have hres : x % q = c % q := by
    rw [← hx, Nat.mod_mod_of_dvd _ (Dvd.intro_left _ rfl), Nat.add_mul_mod_self_right]
  rw [if_pos hres]
  refine le_trans (List.countP_mono_left fun m' hm' hx' => ?_)
    (List.nodup_iff_count_le_one.1 List.nodup_range m)
  have hm' := List.mem_range.1 hm'
  have hmod : x + m' * q ≡ x + m * q [MOD LDPC_BIT_PER_GROUP * q] :=
    (of_decide_eq_true hx').trans hx.symm
  have hmod := Nat.ModEq.mul_right_cancel' hq.ne' (hmod.add_left_cancel' x)
  rw [beq_iff_eq, ← Nat.mod_eq_of_lt hm', ← Nat.mod_eq_of_lt hm]
  exact hmod

/-- The addresses of a c-node's residue are its edges. -/
theorem countP_snd_informationEdges (hq : 0 < l._q) (hp : l._p = LDPC_BIT_PER_GROUP * l._q)
    (hlen : l._k / LDPC_BIT_PER_GROUP = l._acc_addr.length) (c : ℕ) :
    l.informationEdges.countP (fun e => e.2 = c) ≤
      l._acc_addr.flatten.countP (fun x => x % l._q = c % l._q) := by
  have hgroup : ∀ (g : ℕ) (xs : List ℕ), ((List.range LDPC_BIT_PER_GROUP).flatMap fun m =>
      xs.map fun x => (LDPC_BIT_PER_GROUP * g + m, (x + m * l._q) % l._p)).countP (fun e => e.2 = c) ≤
      xs.countP (fun x => x % l._q = c % l._q) := by
    intro g xs
    induction xs with
    | nil => simp
    | cons x xs ih =>
      have hperm := List.map_append_flatMap_perm (List.range LDPC_BIT_PER_GROUP)
        (fun m => (LDPC_BIT_PER_GROUP * g + m, (x + m * l._q) % l._p))
        fun m => xs.map fun x => (LDPC_BIT_PER_GROUP * g + m, (x + m * l._q) % l._p)
      simp only [List.map_cons]
      rw [← hperm.countP_eq, List.countP_append, List.countP_map, List.countP_cons, Nat.add_comm]
      refine Nat.add_le_add ih ?_
      simp only [decide_eq_true_eq]
      exact countP_reached hq hp x c
  have hrows : l._acc_addr.flatten =
      (List.range (l._k / LDPC_BIT_PER_GROUP)).flatMap fun g => l._acc_addr.getD g [] := by
    rw [List.flatMap_def, hlen]
    congr 1
    refine List.ext_getElem (by simp) fun i hi _ => ?_
    simp [List.getD_eq_getElem?_getD, List.getElem?_eq_getElem hi]
  rw [hrows]
  exact countP_flatMap_mono fun g _ => hgroup g _

/-- What `init` makes: an information bit goes to c-nodes that there are, and the parity bits are a chain. -/
structure Code (l : Ldpc) : Prop where
  bytes : 8 ∣ l._k ∧ 8 ∣ l._p
  pos : 0 < l._p
  length : l._n = l._k + l._p
  information : ∀ v < l._k, ∀ c ∈ l.cnodes v, c < l._p
  parity : ∀ j < l._p, l.cnodes (l._k + j) = if j ≠ l._p - 1 then [j, j + 1] else [j]

/-- The ends of an edge of the table. -/
theorem mem_informationEdges {e : ℕ × ℕ} (he : e ∈ l.informationEdges) (hp : 0 < l._p) :
    e.1 < LDPC_BIT_PER_GROUP * (l._k / LDPC_BIT_PER_GROUP) ∧ e.2 < l._p := by
  obtain ⟨g, hg, he⟩ := List.mem_flatMap.1 he
  obtain ⟨m, hm, he⟩ := List.mem_flatMap.1 he
  obtain ⟨x, -, rfl⟩ := List.mem_map.1 he
  have hg := List.mem_range.1 hg
  have hm := List.mem_range.1 hm
  refine ⟨?_, Nat.mod_lt _ hp⟩
  show LDPC_BIT_PER_GROUP * g + m < _
  have := Nat.mul_le_mul_left LDPC_BIT_PER_GROUP hg
  rw [Nat.succ_eq_add_one, Nat.mul_succ] at this
  omega

/-- The edges of the parity bits at one of them. -/
theorem filter_parityEdges {k p j : ℕ} (hj : j < p) :
    ((List.range p).flatMap (parityEdges k p)).filter (fun e => e.1 = k + j) = parityEdges k p j := by
  have hself : (parityEdges k p j).filter (fun e => e.1 = k + j) = parityEdges k p j :=
    List.filter_eq_self.2 fun e he => decide_eq_true (fst_parityEdges e he)
  have hnone : ∀ js : List ℕ, j ∉ js →
      (js.flatMap (parityEdges k p)).filter (fun e => e.1 = k + j) = [] := by
    intro js hjs
    rw [List.filter_eq_nil_iff]
    intro e he
    obtain ⟨j', hj', he⟩ := List.mem_flatMap.1 he
    rw [decide_eq_true_eq, fst_parityEdges e he]
    intro heq
    exact hjs ((Nat.add_left_cancel heq) ▸ hj')
  obtain ⟨front, back, hsplit⟩ := List.append_of_mem (List.mem_range.2 hj)
  have hnodup : (front ++ j :: back).Nodup := hsplit ▸ List.nodup_range
  have hfront : j ∉ front := fun h => List.disjoint_of_nodup_append hnodup h List.mem_cons_self
  have hback : j ∉ back := (List.nodup_cons.1 (List.nodup_append.1 hnodup).2.1).1
  rw [hsplit, List.flatMap_append, List.flatMap_cons, List.filter_append, List.filter_append, hself,
    hnone front hfront, hnone back hback, List.append_nil, List.nil_append]

/-- Parameters that leave room for the edges of every node. -/
structure Fits (l : Ldpc) : Prop where
  pos : 0 < l._q
  parity : l._p = LDPC_BIT_PER_GROUP * l._q
  groups : l._k = LDPC_BIT_PER_GROUP * l._acc_addr.length
  length : l._n = l._k + l._p
  vnode : 2 ≤ l._vnode_deg ∧ ∀ addrs ∈ l._acc_addr, addrs.length ≤ l._vnode_deg
  cnode : ∀ c, l._acc_addr.flatten.countP (fun x => x % l._q = c % l._q) + 2 ≤ l._cnode_deg

namespace Fits

/-- The edges of an information bit fit. -/
theorem vnode_room (h : l.Fits) (v : ℕ) :
    l.informationEdges.countP (fun e => e.1 = v) ≤ l._vnode_deg := by
  refine (countP_fst_informationEdges l v).trans ?_
  rw [List.getD_eq_getElem?_getD]
  cases hrow : l._acc_addr[v / LDPC_BIT_PER_GROUP]? with
  | none => exact Nat.zero_le _
  | some addrs => exact h.vnode.2 addrs (List.mem_of_getElem? hrow)

/-- The edges of a check fit, with two to spare. -/
theorem cnode_room (h : l.Fits) (c : ℕ) :
    l.informationEdges.countP (fun e => e.2 = c) + 2 ≤ l._cnode_deg := by
  have hrows : l._k / LDPC_BIT_PER_GROUP = l._acc_addr.length := by
    rw [h.groups, Nat.mul_div_cancel_left _ (by decide)]
  exact (Nat.add_le_add_right (countP_snd_informationEdges h.pos h.parity hrows c) 2).trans (h.cnode c)

/-- There are checks. -/
theorem p_pos (h : l.Fits) : 0 < l._p := by
  have := h.pos
  rw [h.parity]
  exact Nat.mul_pos (by decide) this

/-- The ends of an edge. -/
theorem mem_edges (h : l.Fits) {e : ℕ × ℕ} (he : e ∈ l.informationEdges) : e.1 < l._k ∧ e.2 < l._p := by
  obtain ⟨h1, h2⟩ := mem_informationEdges he h.p_pos
  exact ⟨Nat.lt_of_lt_of_le h1 (Nat.mul_div_le _ _), h2⟩

end Fits

theorem getD_replicate_nil (n v : ℕ) : (List.replicate n ([] : List ℕ)).getD v [] = [] := by
  rw [List.getD_eq_getElem?_getD, List.getElem?_replicate]
  split <;> rfl

/-- The neighbours of the v-nodes in the end. -/
def vnodeRows (l : Ldpc) : List (List ℕ) :=
  attach (attach (List.replicate l._n []) l.informationEdges)
    ((List.range l._p).flatMap (parityEdges l._k l._p))

/-- **The graph** is built where the table fits. -/
theorem Fits.init_decoder_ok (h : l.Fits) :
    ∃ back, l._init_decoder = .ok { l with _cnode_from := l.vnodeRows, _vnode_from := back } := by
  set l0 : Ldpc := { l with
    _cnode_from := List.replicate l._n []
    _vnode_from := List.replicate l._p [] }
  have hinformation := foldlM_informationBit (l := l0) l.informationEdges
    (fun v => by
      show ((List.replicate l._n []).getD v []).length + _ ≤ l._vnode_deg
      rw [getD_replicate_nil, List.length_nil, Nat.zero_add]
      exact h.vnode_room v)
    (fun c => by
      show ((List.replicate l._p []).getD c []).length + _ ≤ l._cnode_deg
      have := h.cnode_room c
      rw [getD_replicate_nil, List.length_nil, Nat.zero_add]
      omega)
  set rows := attach (List.replicate l._n []) l.informationEdges
  set back := attach (List.replicate l._p []) (l.informationEdges.map Prod.swap)
  have hrow : ∀ j, rows.getD (l._k + j) [] = [] := by
    intro j
    rw [getD_attach_of_ne fun e he heq => ?_, getD_replicate_nil]
    have := (h.mem_edges he).1
    omega
  have hback : ∀ j < l._p, (back.getD j []).length = l.informationEdges.countP fun e => e.2 = j := by
    intro j hj
    rw [getD_attach (by rwa [List.length_replicate]), getD_replicate_nil, List.nil_append, List.length_map,
      ← List.countP_eq_length_filter, List.countP_map]
    rfl
  have hparity := foldlM_parityBit (l := { l with _cnode_from := rows, _vnode_from := back })
    (List.range l._p) List.nodup_range
    (fun j _ => by
      show (rows.getD (l._k + j) []).length + 2 ≤ l._vnode_deg
      rw [hrow]
      exact h.vnode.1)
    (fun j hj => by
      show (back.getD j []).length + 2 ≤ l._cnode_deg
      rw [hback j (List.mem_range.1 hj)]
      exact h.cnode_room j)
  refine ⟨attach back ((List.range l._p).flatMap (backEdges l._k)), ?_⟩
  rw [_init_decoder]
  show (l.informationEdges.foldlM informationBit l0 >>= _) = _
  rw [hinformation]
  show (List.range' l._k l._p).foldlM parityBit _ = _
  rw [List.range'_eq_map_range]
  exact hparity

/-- The rows of the graph describe the code. -/
theorem Fits.code (h : l.Fits) (back : List (List ℕ)) :
    Code { l with _cnode_from := l.vnodeRows, _vnode_from := back } where
  bytes := by
    show 8 ∣ l._k ∧ 8 ∣ l._p
    rw [h.groups, h.parity]
    exact ⟨Dvd.dvd.mul_right (by decide) _, Dvd.dvd.mul_right (by decide) _⟩
  pos := h.p_pos
  length := h.length
  information v hv c hc := by
    have hc : c ∈ l.vnodeRows.getD v [] := hc
    have hv : v < l._k := hv
    rw [vnodeRows, getD_attach_of_ne, getD_attach, getD_replicate_nil, List.nil_append] at hc
    · obtain ⟨e, he, rfl⟩ := List.mem_map.1 hc
      exact (h.mem_edges (List.mem_filter.1 he).1).2
    · rw [List.length_replicate, h.length]
      omega
    · intro e he
      obtain ⟨j, -, he⟩ := List.mem_flatMap.1 he
      rw [fst_parityEdges e he]
      omega
  parity j hj := by
    have hj : j < l._p := hj
    show l.vnodeRows.getD (l._k + j) [] = _
    have hlen : l._k + j < (List.replicate l._n ([] : List ℕ)).length := by
      rw [List.length_replicate, h.length]
      omega
    rw [vnodeRows, getD_attach (by rwa [length_attach]), filter_parityEdges hj,
      getD_attach_of_ne fun e he heq => ?_, getD_replicate_nil, List.nil_append, parityEdges]
    · split <;> rfl
    · have := (h.mem_edges he).1
      omega

/-! ### The tables -/

/-- What is computed from the 21 tables. -/
theorem tables_computed (type : CodingType) :
    type.bchCoded = LDPC_BIT_PER_GROUP * type._acc_addr_table.length ∧
      (if type.normal then DVB_FECFRAME_SIZE_NORMAL else DVB_FECFRAME_SIZE_SHORT) =
        type.bchCoded + LDPC_BIT_PER_GROUP * type.ldpcQValue ∧
      0 < type.ldpcQValue ∧ 2 ≤ type.ldpcVnodeDeg ∧
      (type._acc_addr_table.all fun addrs => addrs.length ≤ type.ldpcVnodeDeg) = true ∧
      type._acc_addr_table.flatten.length < 2 ^ 16 ∧
      ((List.range type.ldpcQValue).all fun r =>
        Tally.tally (2 ^ 16) (· % type.ldpcQValue) type._acc_addr_table.flatten / (2 ^ 16) ^ r % 2 ^ 16 + 2 ≤
          type.ldpcCnodeDeg) = true := by
  cases type <;> decide +kernel

/-- No check has more edges in its table than there is room for. -/
theorem acc_addr_table_count (type : CodingType) (c : ℕ) :
    type._acc_addr_table.flatten.countP (fun x => x % type.ldpcQValue = c % type.ldpcQValue) + 2 ≤
      type.ldpcCnodeDeg := by
  obtain ⟨-, -, hq, -, -, hlen, hdeg⟩ := tables_computed type
  have hr : c % type.ldpcQValue ∈ List.range type.ldpcQValue := List.mem_range.2 (Nat.mod_lt _ hq)
  have h := of_decide_eq_true (List.all_eq_true.1 hdeg _ hr)
  rwa [Tally.digit_tally hlen] at h

/-- **No assertion fails.** -/
theorem init_code (type : CodingType) : ∃ l, init type = .ok l ∧ l.Code ∧ l._k = type.bchCoded ∧
    l._n = if type.normal then DVB_FECFRAME_SIZE_NORMAL else DVB_FECFRAME_SIZE_SHORT := by
  obtain ⟨hk, hn, hq, hdeg, hrow, -, -⟩ := tables_computed type
  set n := if type.normal then DVB_FECFRAME_SIZE_NORMAL else DVB_FECFRAME_SIZE_SHORT with hsize
  set l : Ldpc := {
    _k := type.bchCoded
    _n := n
    _p := n - type.bchCoded
    _q := type.ldpcQValue
    _vnode_deg := type.ldpcVnodeDeg
    _cnode_deg := type.ldpcCnodeDeg
    _acc_addr := type._acc_addr_table
    _cnode_from := []
    _vnode_from := [] }
  have hfits : l.Fits := {
    pos := hq
    parity := by
      show n - type.bchCoded = LDPC_BIT_PER_GROUP * type.ldpcQValue
      omega
    groups := hk
    length := by
      show n = type.bchCoded + (n - type.bchCoded)
      omega
    vnode := ⟨hdeg, fun addrs haddrs => of_decide_eq_true (List.all_eq_true.1 hrow addrs haddrs)⟩
    cnode := acc_addr_table_count type }
  obtain ⟨back, hinit⟩ := hfits.init_decoder_ok
  exact ⟨_, hinit, hfits.code back, rfl, rfl⟩

end Ldpc

end Dvb
