import Nctuns.Mesh.Ospf

/-!
# Proofs about the routes of the mesh OSPF

Making the routes of a tree is a series of writes to a table with distinct targets. `Written` says which
routes a part of the program has written, and `routesBelow` lists those of a part of the tree.
-/

namespace Mesh

open LevelTree PtrChain

variable {rtb rtb' rtb'' ws ws' : List mesh_rte} {rte : mesh_rte} {k : keytype}

/-! ## The table -/

/-- The table `rtb'` is `rtb` after the routes `ws` were written. -/
structure Written (rtb rtb' ws : List mesh_rte) : Prop where
  distinct : (rtb'.map mesh_rte.target).Nodup
  new : ∀ rte ∈ ws, rtb_find rtb' rte.target = some rte
  old : ∀ k, k ∉ ws.map mesh_rte.target → rtb_find rtb' k = rtb_find rtb k

theorem Written.nil (h : (rtb.map mesh_rte.target).Nodup) : Written rtb rtb [] :=
  ⟨h, fun _ hmem => absurd hmem List.not_mem_nil, fun _ _ => rfl⟩

theorem Written.append (h : Written rtb rtb' ws) (h' : Written rtb' rtb'' ws')
    (hd : ((ws ++ ws').map mesh_rte.target).Nodup) : Written rtb rtb'' (ws ++ ws') := by
  rw [List.map_append] at hd
  have hdisj := (List.nodup_append.1 hd).2.2
  refine ⟨h'.distinct, ?_, ?_⟩
  · intro rte hrte
    rcases List.mem_append.1 hrte with hfst | hsnd
    · have hnot : rte.target ∉ ws'.map mesh_rte.target := fun hmem =>
        hdisj _ (List.mem_map_of_mem hfst) _ hmem rfl
      rw [h'.old _ hnot, h.new rte hfst]
    · exact h'.new rte hsnd
  · intro k hk
    rw [List.map_append, List.mem_append, not_or] at hk
    rw [h'.old k hk.2, h.old k hk.1]

theorem Written.find_eq_none (h : Written rtb rtb' ws) :
    rtb_find rtb' k = none ↔ rtb_find rtb k = none ∧ k ∉ ws.map mesh_rte.target := by
  by_cases hk : k ∈ ws.map mesh_rte.target
  · obtain ⟨rte, hrte, rfl⟩ := List.mem_map.1 hk
    rw [h.new rte hrte]
    exact ⟨fun he => absurd he (by simp), fun he => absurd hk he.2⟩
  · rw [h.old k hk]
    exact ⟨fun he => ⟨he, hk⟩, fun he => he.1⟩

theorem not_mem_targets (h : rtb_find rtb k = none) : k ∉ rtb.map mesh_rte.target := by
  intro hmem
  obtain ⟨rte, hrte, rfl⟩ := List.mem_map.1 hmem
  exact Keyed.get_eq_none.1 h rte hrte rfl

/-- A route in front of a table that has no route with its target. -/
theorem written_cons (rte : mesh_rte) (hd : (rtb.map mesh_rte.target).Nodup) (h : rtb_find rtb rte.target = none) :
    Written rtb (rte :: rtb) [rte] := by
  refine ⟨List.nodup_cons.2 ⟨not_mem_targets h, hd⟩, ?_, ?_⟩
  · intro r hr
    obtain rfl := List.mem_singleton.1 hr
    exact (Keyed.get_cons r rtb).trans (if_pos rfl)
  · intro k hk
    have hne : rte.target ≠ k := fun he => hk (List.mem_singleton.2 he.symm)
    exact (Keyed.get_cons rte rtb).trans (if_neg hne)

/-- A route in the place of the one with its target. -/
theorem written_del_add (rte : mesh_rte) (hd : (rtb.map mesh_rte.target).Nodup) :
    Written rtb (rtb_add (rtb_del rtb rte.target) rte) [rte] := by
  have hfind (k : keytype) : rtb_find (rtb_del rtb rte.target) k =
      if k = rte.target then none else rtb_find rtb k := Keyed.get_remove hd
  have hnone : rtb_find (rtb_del rtb rte.target) rte.target = none := by rw [hfind, if_pos rfl]
  have hd' : ((rtb_del rtb rte.target).map mesh_rte.target).Nodup :=
    hd.sublist (Keyed.remove_sublist.map mesh_rte.target)
  have hcons := written_cons rte hd' hnone
  have hadd : rtb_add (rtb_del rtb rte.target) rte = rte :: rtb_del rtb rte.target := by
    unfold rtb_add
    rw [hnone]
    rfl
  rw [hadd]
  refine ⟨hcons.distinct, hcons.new, fun k hk => ?_⟩
  have hne : k ≠ rte.target := fun he => hk (List.mem_singleton.2 he)
  rw [hcons.old k hk, hfind, if_neg hne]

/-- A route over the one with its target. -/
theorem written_update (rte : mesh_rte) (hd : (rtb.map mesh_rte.target).Nodup) (h : (rtb_find rtb rte.target).isSome) :
    Written rtb (Keyed.update mesh_rte.target rte.target (fun _ => rte) rtb) [rte] := by
  have hkey : ∀ r : mesh_rte, r.target = rte.target → rte.target = rte.target := fun _ _ => rfl
  refine ⟨?_, ?_, ?_⟩
  · rw [Keyed.map_update hkey]
    exact hd
  · intro r hr
    obtain rfl := List.mem_singleton.1 hr
    obtain ⟨old, hold⟩ := Option.isSome_iff_exists.1 h
    have hold' : Keyed.get mesh_rte.target r.target rtb = some old := hold
    unfold rtb_find
    rw [Keyed.get_update hkey, if_pos rfl, hold']
    rfl
  · intro k hk
    have hne : k ≠ rte.target := fun he => hk (List.mem_singleton.2 he)
    unfold rtb_find
    rw [Keyed.get_update hkey, if_neg hne]

/-- A loop whose rounds write different routes. -/
theorem written_foldlM {ι : Type} {f : List mesh_rte → ι → Option (List mesh_rte)}
    {g : ι → List mesh_rte} {l : List ι}
    (hf : ∀ i ∈ l, ∀ rtb, (rtb.map mesh_rte.target).Nodup →
      ∃ rtb', f rtb i = some rtb' ∧ Written rtb rtb' (g i))
    (hd : ((l.flatMap g).map mesh_rte.target).Nodup) (hrtb : (rtb.map mesh_rte.target).Nodup) :
    ∃ rtb', l.foldlM f rtb = some rtb' ∧ Written rtb rtb' (l.flatMap g) := by
  induction l generalizing rtb with
  | nil => exact ⟨rtb, rfl, .nil hrtb⟩
  | cons i l ih =>
    obtain ⟨rtb₁, h₁, hw₁⟩ := hf i List.mem_cons_self rtb hrtb
    rw [List.flatMap_cons] at hd ⊢
    have hdl : ((l.flatMap g).map mesh_rte.target).Nodup := by
      rw [List.map_append] at hd
      exact (List.nodup_append.1 hd).2.1
    obtain ⟨rtb₂, h₂, hw₂⟩ := ih (fun j hj => hf j (List.mem_cons_of_mem _ hj)) hdl hw₁.distinct
    refine ⟨rtb₂, ?_, hw₁.append hw₂ hd⟩
    rw [List.foldlM_cons, h₁]
    exact h₂

/-! ## The routes of a tree -/

/-- The routes of a node at depth `d` and of the nodes below it. -/
def routesBelow (t : Arena keytype) (fuel n i d : ℕ) (base : mesh_rte) : List mesh_rte :=
  (t.preorder fuel n i d).map fun x => { base with target := t.id x.1, hop := base.hop + x.2 }

theorem routesBelow_succ (t : Arena keytype) (fuel n i d : ℕ) (base : mesh_rte) :
    routesBelow t fuel (n + 1) i d base =
      { base with target := t.id i, hop := base.hop + d } ::
        (t.kids i fuel (t.child i)).flatMap fun c => routesBelow t fuel n c (d + 1) base := by
  unfold routesBelow
  rw [Arena.preorder, List.map_cons, List.map_flatMap]

theorem targets_routesBelow (t : Arena keytype) (fuel n i d : ℕ) (base : mesh_rte) :
    (routesBelow t fuel n i d base).map mesh_rte.target =
      ((t.preorder fuel n i d).map Prod.fst).map t.id := by
  unfold routesBelow
  rw [List.map_map, List.map_map]
  rfl

section Tree

variable {root : keytype} {t : Arena keytype} {fuel n i d : ℕ} {base : mesh_rte}

/-- The nodes of a part of the tree have ids of their own. -/
theorem nodup_ids (ht : t.Tree root []) (hfuel : t.size ≤ fuel) (hi : i < t.size) (hn : t.size ≤ n + i) :
    (((t.preorder fuel n i d).map Prod.fst).map t.id).Nodup := by
  refine (List.nodup_map_iff_inj_on (ht.nodup_preorder hfuel hi hn)).2 ?_
  intro j hj j' hj' he
  obtain ⟨⟨j, e⟩, hje, rfl⟩ := List.mem_map.1 hj
  obtain ⟨⟨j', e'⟩, hje', rfl⟩ := List.mem_map.1 hj'
  exact ht.inj j ((ht.mem_preorder hfuel hi hn j e).1 hje).1 j'
    ((ht.mem_preorder hfuel hi hn j' e').1 hje').1 he

/-- The routes of the node and of all below it are written. -/
theorem set_route_spec (base : mesh_rte) (ht : t.Tree root []) (hfuel : t.size ≤ fuel) (hi : i < t.size)
    (hn : t.size ≤ n + i) (x : keytype) (hrtb : (rtb.map mesh_rte.target).Nodup) :
    ∃ rtb', ospf_set_route t fuel n rtb i { base with target := x, hop := base.hop + d } = some rtb' ∧
      Written rtb rtb' (routesBelow t fuel n i (d + 1) base) := by
  induction n generalizing i d x rtb with
  | zero => omega
  | succ n ih =>
    have hd := targets_routesBelow t fuel (n + 1) i (d + 1) base ▸ nodup_ids ht hfuel hi hn
    rw [routesBelow_succ] at hd ⊢
    have hhop : base.hop + d + 1 = base.hop + ((d + 1 : ℕ) : Int) := by omega
    have hown := written_del_add { base with target := t.id i, hop := base.hop + ((d + 1 : ℕ) : Int) } hrtb
    obtain ⟨rtb', hrun, hbelow⟩ := written_foldlM (l := t.kids i fuel (t.child i))
      (f := fun rtb tc => ospf_set_route t fuel n rtb tc
        { base with target := t.id i, hop := base.hop + ((d + 1 : ℕ) : Int) })
      (g := fun c => routesBelow t fuel n c (d + 1 + 1) base)
      (fun c hc rtb hrtb => by
        obtain ⟨hclt, hpar⟩ := ((ht.mem_kids hi hfuel).2 c).1 hc
        have hci := ht.parent_lt hclt hpar
        exact ih hclt (by omega) (t.id i) hrtb)
      (List.Nodup.of_cons hd) hown.distinct
    refine ⟨rtb', ?_, hown.append hbelow hd⟩
    unfold ospf_set_route
    dsimp only
    rw [hhop]
    exact hrun

/-! ## The routes of the neighbours -/

variable {neighbors : List neighbor} {junk : keytype → keytype} {type : ℕ → UInt8} {ne : neighbor} {ts : ℕ}

/-- What the routes by way of a neighbour have in common. -/
def neighborBase (id : keytype) (type : UInt8) (ne : neighbor) : mesh_rte :=
  { neighborRoute id type ne with hop := 0 }

/-- A round writes the routes by way of a neighbour, but that of the neighbour itself only if it is known
or the memory of the new one does not hold a known target. -/
theorem round_spec (junk : keytype → keytype) (type : ℕ → UInt8) (ht : t.Tree root []) (hfuel : t.size ≤ fuel) (hts : ts < t.size)
    (hne : neigh_find neighbors (t.id ts) = some ne) (hrtb : (rtb.map mesh_rte.target).Nodup) :
    ∃ rtb', routeRound neighbors junk t type fuel rtb ts = some rtb' ∧ Written rtb rtb'
      (if rtb_find rtb (t.id ts) = none → rtb_find rtb (junk (t.id ts)) = none
        then routesBelow t fuel (fuel + 1) ts 1 (neighborBase (t.id ts) (type ts) ne)
        else (routesBelow t fuel (fuel + 1) ts 1
          (neighborBase (t.id ts) (type ts) ne)).tail) := by
  have hd := targets_routesBelow t fuel (fuel + 1) ts 1 (neighborBase (t.id ts) (type ts) ne) ▸
    nodup_ids (n := fuel + 1) (d := 1) ht hfuel hts (by omega)
  rw [routesBelow_succ] at hd ⊢
  have hrte : { neighborBase (t.id ts) (type ts) ne with target := t.id ts, hop := 0 + ((1 : ℕ) : Int) }
      = neighborRoute (t.id ts) (type ts) ne := rfl
  have hkids {rtb : List mesh_rte} (hrtb : (rtb.map mesh_rte.target).Nodup) :=
    written_foldlM (l := t.kids ts fuel (t.child ts))
      (f := fun rtb tc => ospf_set_route t fuel fuel rtb tc (neighborRoute (t.id ts) (type ts) ne))
      (g := fun c => routesBelow t fuel fuel c (1 + 1) (neighborBase (t.id ts) (type ts) ne))
      (fun c hc rtb hrtb => by
        obtain ⟨hclt, hpar⟩ := ((ht.mem_kids hts hfuel).2 c).1 hc
        exact set_route_spec (neighborBase (t.id ts) (type ts) ne) (d := 1) ht hfuel hclt
          (by omega) (t.id ts) hrtb)
      (List.Nodup.of_cons hd) hrtb
  have hround : routeRound neighbors junk t type fuel rtb ts =
      (t.kids ts fuel (t.child ts)).foldlM
        (fun rtb tc => ospf_set_route t fuel fuel rtb tc (neighborRoute (t.id ts) (type ts) ne))
        (if (rtb_find rtb (t.id ts)).isSome then
          Keyed.update mesh_rte.target (t.id ts)
            (fun _ => neighborRoute (t.id ts) (type ts) ne) rtb
        else if (rtb_find rtb (junk (t.id ts))).isSome then rtb
        else neighborRoute (t.id ts) (type ts) ne :: rtb) := by
    unfold routeRound
    rw [hne]
    rfl
  rw [hround]
  cases hknown : rtb_find rtb (t.id ts) with
  | some old =>
    have hown := written_update (neighborRoute (t.id ts) (type ts) ne) hrtb
      (by
        rw [show (neighborRoute (t.id ts) (type ts) ne).target = t.id ts from rfl, hknown]
        rfl)
    obtain ⟨rtb', hrun, hbelow⟩ := hkids hown.distinct
    refine ⟨rtb', hrun, ?_⟩
    rw [if_pos fun hnone => absurd hnone (by simp)]
    exact hown.append hbelow hd
  | none =>
    cases hjunk : rtb_find rtb (junk (t.id ts)) with
    | none =>
      have hown := written_cons (neighborRoute (t.id ts) (type ts) ne) hrtb hknown
      obtain ⟨rtb', hrun, hbelow⟩ := hkids hown.distinct
      refine ⟨rtb', hrun, ?_⟩
      rw [if_pos fun _ => rfl]
      exact hown.append hbelow hd
    | some old =>
      -- the new route is not linked: only the routes below it are written
      obtain ⟨rtb', hrun, hbelow⟩ := hkids hrtb
      refine ⟨rtb', hrun, ?_⟩
      rw [if_neg fun himp => absurd (himp rfl) (by simp)]
      exact hbelow

/-- The routes by way of the neighbour at `ts`. -/
def routesVia (t : Arena keytype) (type : ℕ → UInt8) (ne : ℕ → neighbor)
    (fuel ts : ℕ) : List mesh_rte :=
  routesBelow t fuel (fuel + 1) ts 1 (neighborBase (t.id ts) (type ts) (ne ts))

theorem mem_targets_routesVia (t : Arena keytype) (type : ℕ → UInt8)
    (ne : ℕ → neighbor) (fuel ts : ℕ) :
    t.id ts ∈ (routesVia t type ne fuel ts).map mesh_rte.target := by
  unfold routesVia
  rw [routesBelow_succ]
  exact List.mem_cons_self

theorem mem_routesVia (ht : t.Tree root []) (hfuel : t.size ≤ fuel) (hts : ts < t.size)
    (ne : ℕ → neighbor) (v : keytype) :
    v ∈ (routesVia t type ne fuel ts).map mesh_rte.target ↔
      ∃ j < t.size, ∃ d, t.up d j = some ts ∧ t.id j = v := by
  unfold routesVia
  rw [targets_routesBelow, List.map_map, List.mem_map]
  constructor
  · rintro ⟨⟨j, e⟩, hje, rfl⟩
    obtain ⟨hj, d, -, hup⟩ := (ht.mem_preorder hfuel hts (by omega) j e).1 hje
    exact ⟨j, hj, d, hup, rfl⟩
  · rintro ⟨j, hj, d, hup, rfl⟩
    exact ⟨(j, 1 + d), (ht.mem_preorder hfuel hts (by omega) j (1 + d)).2 ⟨hj, d, rfl, hup⟩, rfl⟩

/-- The routes by way of all neighbours have targets of their own. -/
theorem nodup_routesVia (type : ℕ → UInt8) (ht : t.Tree root []) (hfuel : t.size ≤ fuel) (ne : ℕ → neighbor) :
    (((PtrChain.walk t.sibling fuel (t.child 0)).flatMap
      (routesVia t type ne fuel)).map mesh_rte.target).Nodup := by
  have hall := nodup_ids (n := fuel + 2) (d := 0) ht hfuel ht.pos (by omega)
  rw [Arena.preorder, List.map_cons, List.map_cons] at hall
  have htail := List.Nodup.of_cons hall
  rw [List.map_flatMap, List.map_flatMap] at htail
  rw [(ht.walk_top hfuel).1, List.map_flatMap]
  unfold routesVia
  simp only [targets_routesBelow]
  exact htail

/-- No new route has had the target of a known one in its memory, from a table and a neighbour on. -/
def Fresh (neighbors : List neighbor) (junk : keytype → keytype) (t : Arena keytype) (type : ℕ → UInt8)
    (fuel : ℕ) (rtb : List mesh_rte) (l : List ℕ) : Prop :=
  ∀ pre ts post, l = pre ++ ts :: post →
    ∀ rtb', pre.foldlM (routeRound neighbors junk t type fuel) rtb = some rtb' →
      rtb_find rtb' (t.id ts) = none → rtb_find rtb' (junk (t.id ts)) = none

theorem rounds_fresh (ht : t.Tree root []) (hfuel : t.size ≤ fuel) {ne : ℕ → neighbor} {l : List ℕ}
    (hl : ∀ ts ∈ l, ts < t.size ∧ neigh_find neighbors (t.id ts) = some (ne ts))
    (hd : ((l.flatMap (routesVia t type ne fuel)).map mesh_rte.target).Nodup)
    (hrtb : (rtb.map mesh_rte.target).Nodup) (hfresh : Fresh neighbors junk t type fuel rtb l) :
    ∃ rtb', l.foldlM (routeRound neighbors junk t type fuel) rtb = some rtb' ∧
      Written rtb rtb' (l.flatMap (routesVia t type ne fuel)) := by
  induction l generalizing rtb with
  | nil => exact ⟨rtb, rfl, .nil hrtb⟩
  | cons ts l ih =>
    obtain ⟨hts, hne⟩ := hl ts List.mem_cons_self
    obtain ⟨rtb₁, h₁, hw₁⟩ := round_spec junk type ht hfuel hts hne hrtb
    rw [if_pos (hfresh [] ts l rfl rtb rfl)] at hw₁
    rw [List.flatMap_cons] at hd ⊢
    have hdl : ((l.flatMap (routesVia t type ne fuel)).map mesh_rte.target).Nodup := by
      rw [List.map_append] at hd
      exact (List.nodup_append.1 hd).2.1
    have hfresh₁ : Fresh neighbors junk t type fuel rtb₁ l := by
      intro pre ts' post heq rtb' hpre
      refine hfresh (ts :: pre) ts' post (by rw [heq]; rfl) rtb' ?_
      rw [List.foldlM_cons, h₁]
      exact hpre
    obtain ⟨rtb₂, h₂, hw₂⟩ := ih (fun j hj => hl j (List.mem_cons_of_mem _ hj)) hdl hw₁.distinct hfresh₁
    refine ⟨rtb₂, ?_, hw₁.append hw₂ hd⟩
    rw [List.foldlM_cons, h₁]
    exact h₂

/-- Rounds end, and other targets keep their routes. -/
theorem rounds_frame (junk : keytype → keytype) (type : ℕ → UInt8) (ht : t.Tree root []) (hfuel : t.size ≤ fuel) {ne : ℕ → neighbor} {l : List ℕ}
    (hl : ∀ ts ∈ l, ts < t.size ∧ neigh_find neighbors (t.id ts) = some (ne ts))
    (hrtb : (rtb.map mesh_rte.target).Nodup) :
    ∃ rtb', l.foldlM (routeRound neighbors junk t type fuel) rtb = some rtb' ∧
      (rtb'.map mesh_rte.target).Nodup ∧
      ∀ k, k ∉ (l.flatMap (routesVia t type ne fuel)).map mesh_rte.target →
        rtb_find rtb' k = rtb_find rtb k := by
  induction l generalizing rtb with
  | nil => exact ⟨rtb, rfl, hrtb, fun _ _ => rfl⟩
  | cons ts l ih =>
    obtain ⟨hts, hne⟩ := hl ts List.mem_cons_self
    obtain ⟨rtb₁, h₁, hw₁⟩ := round_spec junk type ht hfuel hts hne hrtb
    obtain ⟨rtb₂, h₂, hd₂, hold₂⟩ := ih (fun j hj => hl j (List.mem_cons_of_mem _ hj)) hw₁.distinct
    refine ⟨rtb₂, ?_, hd₂, ?_⟩
    · rw [List.foldlM_cons, h₁]
      exact h₂
    · intro k hk
      rw [List.flatMap_cons, List.map_append, List.mem_append, not_or] at hk
      rw [hold₂ k hk.2]
      refine hw₁.old k fun hmem => hk.1 ?_
      split at hmem
      · exact hmem
      · exact List.Sublist.subset ((List.tail_sublist _).map _) hmem

theorem make_route_ends (junk : keytype → keytype) (type : ℕ → UInt8) (ht : t.Tree root []) (hfuel : t.size ≤ fuel) {ne : ℕ → neighbor}
    (hne : ∀ ts, ts < t.size → t.parent ts = some 0 → neigh_find neighbors (t.id ts) = some (ne ts))
    (hrtb : (rtb.map mesh_rte.target).Nodup) :
    ∃ rtb', ospf_make_route neighbors junk t type fuel rtb = some rtb' ∧
      (rtb'.map mesh_rte.target).Nodup := by
  obtain ⟨rtb', hrun, hd, -⟩ := rounds_frame junk type
    (l := PtrChain.walk t.sibling fuel (t.child 0)) ht hfuel (fun ts hts => by
      rw [(ht.walk_top hfuel).1] at hts
      obtain ⟨hlt, hpar⟩ := ((ht.mem_kids ht.pos hfuel).2 ts).1 hts
      exact ⟨hlt, hne ts hlt hpar⟩) hrtb
  exact ⟨rtb', hrun, hd⟩

/-- As long as no new route has had the target of a known one in its memory, the table holds the old
routes and those by way of the neighbours before. -/
theorem fresh_iff (ht : t.Tree root []) (hfuel : t.size ≤ fuel) {ne : ℕ → neighbor} {l : List ℕ}
    (hl : ∀ ts ∈ l, ts < t.size ∧ neigh_find neighbors (t.id ts) = some (ne ts))
    (hd : ((l.flatMap (routesVia t type ne fuel)).map mesh_rte.target).Nodup)
    (hrtb : (rtb.map mesh_rte.target).Nodup) :
    Fresh neighbors junk t type fuel rtb l ↔
      ∀ pre ts post, l = pre ++ ts :: post → rtb_find rtb (t.id ts) = none →
        rtb_find rtb (junk (t.id ts)) = none ∧
          junk (t.id ts) ∉ (pre.flatMap (routesVia t type ne fuel)).map mesh_rte.target := by
  induction l generalizing rtb with
  | nil =>
    constructor
    · exact fun _ pre ts post heq => absurd heq (by simp)
    · exact fun _ pre ts post heq => absurd heq (by simp)
  | cons ts₀ l ih =>
    obtain ⟨hts₀, hne₀⟩ := hl ts₀ List.mem_cons_self
    have hl' : ∀ ts ∈ l, ts < t.size ∧ neigh_find neighbors (t.id ts) = some (ne ts) :=
      fun ts hts => hl ts (List.mem_cons_of_mem _ hts)
    rw [List.flatMap_cons, List.map_append] at hd
    obtain ⟨-, hdl, hdisj⟩ := List.nodup_append.1 hd
    obtain ⟨rtb₁, h₁, hw₁⟩ := round_spec junk type ht hfuel hts₀ hne₀ hrtb
    have hother : ∀ ts ∈ l, t.id ts ∉ (routesVia t type ne fuel ts₀).map mesh_rte.target := by
      intro ts hts hmem
      refine hdisj _ hmem (t.id ts) ?_ rfl
      rw [List.map_flatMap]
      exact List.mem_flatMap.2 ⟨ts, hts, mem_targets_routesVia t type ne fuel ts⟩
    constructor
    · intro hfresh
      have hhead := hfresh [] ts₀ l rfl rtb rfl
      rw [if_pos hhead] at hw₁
      have hfresh₁ : Fresh neighbors junk t type fuel rtb₁ l := by
        intro pre ts post heq rtb' hpre
        refine hfresh (ts₀ :: pre) ts post (by rw [heq]; rfl) rtb' ?_
        rw [List.foldlM_cons, h₁]
        exact hpre
      intro pre ts post heq hnone
      cases pre with
      | nil =>
        obtain ⟨rfl, rfl⟩ := List.cons.inj heq
        exact ⟨hhead hnone, List.not_mem_nil⟩
      | cons ts₁ pre =>
        obtain ⟨rfl, rfl⟩ := List.cons.inj heq
        have hts : ts ∈ pre ++ ts :: post := List.mem_append_right _ List.mem_cons_self
        obtain ⟨hjunk, hnot⟩ := (ih hl' hdl hw₁.distinct).1 hfresh₁ pre ts post rfl
          (hw₁.find_eq_none.2 ⟨hnone, hother ts hts⟩)
        obtain ⟨hjunk, hnot₀⟩ := hw₁.find_eq_none.1 hjunk
        refine ⟨hjunk, ?_⟩
        rw [List.flatMap_cons, List.map_append, List.mem_append]
        exact fun hmem => hmem.elim hnot₀ hnot
    · intro hcond
      have hhead : rtb_find rtb (t.id ts₀) = none → rtb_find rtb (junk (t.id ts₀)) = none :=
        fun hnone => (hcond [] ts₀ l rfl hnone).1
      rw [if_pos hhead] at hw₁
      have hfresh₁ : Fresh neighbors junk t type fuel rtb₁ l := by
        refine (ih hl' hdl hw₁.distinct).2 fun pre ts post heq hnone => ?_
        obtain ⟨hjunk, hnot⟩ := hcond (ts₀ :: pre) ts post (by rw [heq]; rfl) (hw₁.find_eq_none.1 hnone).1
        rw [List.flatMap_cons, List.map_append, List.mem_append, not_or] at hnot
        exact ⟨hw₁.find_eq_none.2 ⟨hjunk, hnot.1⟩, hnot.2⟩
      intro pre ts post heq rtb' hpre
      cases pre with
      | nil =>
        obtain ⟨rfl, rfl⟩ := List.cons.inj heq
        obtain rfl := Option.some.inj hpre
        exact hhead
      | cons ts₁ pre =>
        obtain ⟨rfl, rfl⟩ := List.cons.inj heq
        rw [List.foldlM_cons, h₁] at hpre
        exact hfresh₁ pre ts post rfl rtb' hpre

/-- **Routes.** Every node below the root has got the route by way of the child of the root above it if and
only if no new route has had the target of a known one in its memory. -/
theorem make_route_iff (ht : t.Tree root []) (hfuel : t.size ≤ fuel) {ne : ℕ → neighbor}
    (hne : ∀ ts, ts < t.size → t.parent ts = some 0 → neigh_find neighbors (t.id ts) = some (ne ts))
    (hrtb : (rtb.map mesh_rte.target).Nodup)
    (hrun : ospf_make_route neighbors junk t type fuel rtb = some rtb') :
    Fresh neighbors junk t type fuel rtb (PtrChain.walk t.sibling fuel (t.child 0)) ↔
      ∀ j < t.size, ∀ d, t.up (d + 1) j = some 0 → ∃ rte, rtb_find rtb' (t.id j) = some rte ∧
        rte.hop = d + 1 ∧ ∃ ts, t.up d j = some ts ∧ rte.nexthop = t.id ts := by
  have hl : ∀ ts ∈ PtrChain.walk t.sibling fuel (t.child 0),
      ts < t.size ∧ neigh_find neighbors (t.id ts) = some (ne ts) := by
    intro ts hts
    rw [(ht.walk_top hfuel).1] at hts
    obtain ⟨hlt, hpar⟩ := ((ht.mem_kids ht.pos hfuel).2 ts).1 hts
    exact ⟨hlt, hne ts hlt hpar⟩
  have hd := nodup_routesVia type ht hfuel ne
  constructor
  · intro hfresh j hj d hup
    obtain ⟨rtb'', hrun', hw⟩ := rounds_fresh ht hfuel hl hd hrtb hfresh
    obtain rfl : rtb'' = rtb' := Option.some.inj (hrun'.symm.trans hrun)
    rw [Arena.up_succ] at hup
    obtain ⟨ts, hup, hpar⟩ := Option.bind_eq_some_iff.1 hup
    have hlt : ts < t.size := by
      have := ht.up_le hj hup
      omega
    have hmem : (j, 1 + d) ∈ t.preorder fuel (fuel + 1) ts 1 :=
      (ht.mem_preorder hfuel hlt (by omega) j (1 + d)).2 ⟨hj, d, rfl, hup⟩
    have hwalk : ts ∈ PtrChain.walk t.sibling fuel (t.child 0) := by
      rw [(ht.walk_top hfuel).1]
      exact ((ht.mem_kids ht.pos hfuel).2 ts).2 ⟨hlt, hpar⟩
    have hnew := hw.new _ (List.mem_flatMap.2 ⟨ts, hwalk, List.mem_map_of_mem hmem⟩)
    refine ⟨_, hnew, ?_, ts, hup, rfl⟩
    change (0 : Int) + ((1 + d : ℕ) : Int) = d + 1
    omega
  · intro hroutes pre ts post heq rtb₁ hpre hnone
    by_contra hjunk
    -- the round of `ts` leaves it without a route, and no later one writes it
    rw [heq] at hl hd
    rw [List.flatMap_append, List.flatMap_cons, List.map_append, List.map_append] at hd
    obtain ⟨hts, hnets⟩ := hl ts (List.mem_append_right _ List.mem_cons_self)
    obtain ⟨rtb₁', hpre', hdist, -⟩ := rounds_frame junk type ht hfuel
      (fun j hj => hl j (List.mem_append_left _ hj)) hrtb
    obtain rfl : rtb₁' = rtb₁ := Option.some.inj (hpre'.symm.trans hpre)
    obtain ⟨rtb₂, h₂, hw₂⟩ := round_spec junk type ht hfuel hts hnets hdist
    rw [if_neg fun himp => hjunk (himp hnone)] at hw₂
    obtain ⟨rtb₃, h₃, -, hold₃⟩ := rounds_frame junk type ht hfuel
      (fun j hj => hl j (List.mem_append_right _ (List.mem_cons_of_mem _ hj))) hw₂.distinct
    have hfin : rtb₃ = rtb' := by
      unfold ospf_make_route at hrun
      rw [heq, List.foldlM_append, hpre, Option.bind_eq_bind, Option.bind_some, List.foldlM_cons, h₂,
        Option.bind_eq_bind, Option.bind_some, h₃] at hrun
      exact Option.some.inj hrun
    have hvia : routesVia t type ne fuel ts =
        { neighborBase (t.id ts) (type ts) (ne ts) with
          target := t.id ts
          hop := 0 + ((1 : ℕ) : Int) } :: (routesVia t type ne fuel ts).tail := by
      unfold routesVia
      rw [routesBelow_succ]
      rfl
    have hdts := (List.nodup_append.1 hd).2.1
    rw [hvia, List.map_cons, List.cons_append, List.nodup_cons, List.mem_append, not_or] at hdts
    have hpar : t.parent ts = some 0 := by
      have hmem : ts ∈ PtrChain.walk t.sibling fuel (t.child 0) := by
        rw [heq]
        exact List.mem_append_right _ List.mem_cons_self
      rw [(ht.walk_top hfuel).1] at hmem
      exact (((ht.mem_kids ht.pos hfuel).2 ts).1 hmem).2
    obtain ⟨rte, hrte, -⟩ := hroutes ts hts 0 (by rw [Arena.up, hpar]; rfl)
    rw [← hfin, hold₃ _ hdts.1.2, hw₂.old _ hdts.1.1, hnone] at hrte
    cases hrte

end Tree

end Mesh
