import Nctuns.Mesh.Proofs.RouteProofs

/-!
# Proofs about the trees of the mesh OSPF

The nodes of a tree are those that `LevelTree` builds. The routes follow the tree, node by node.
-/

namespace Mesh

open LevelTree PtrChain

/-! ## The nodes -/

namespace Tree_ori

variable {lists : List (lsa_list lsa_body_ori)} {n : ℕ}

/-- A field of the nodes after a write to one of them. -/
theorem field_update {β : Type} (f : ospf_tnode_ori → β) (node : ℕ → ospf_tnode_ori) (i : ℕ)
    (tn : ospf_tnode_ori) :
    (fun j => f (Function.update node i tn j)) = Function.update (fun j => f (node j)) i (f tn) :=
  Function.comp_update f node i tn

/-- The arena after a new node. -/
theorem arena_malloc (s : Tree_ori) (tn : ospf_tnode_ori) : (s.malloc tn).arena = { s.arena with
    size := s.size + 1
    parent := Function.update s.arena.parent s.size tn.parent
    child := Function.update s.arena.child s.size tn.child
    sibling := Function.update s.arena.sibling s.size tn.sibling
    id := Function.update s.arena.id s.size tn.body.id } := by
  unfold arena malloc
  simp only [field_update (fun tn => tn.parent), field_update (fun tn => tn.child),
    field_update (fun tn => tn.sibling), field_update (fun tn => tn.body.id)]

/-- The arena after a child pointer is set. -/
theorem arena_child (s : Tree_ori) (i : ℕ) (c : Option ℕ) :
    (s.modify i fun tn => { tn with child := c }).arena =
      { s.arena with child := Function.update s.arena.child i c } := by
  unfold arena modify
  simp only [field_update (fun tn => tn.parent), field_update (fun tn => tn.child),
    field_update (fun tn => tn.sibling), field_update (fun tn => tn.body.id)]
  congr 1 <;> exact Function.update_eq_self _ _

/-- The arena after a sibling pointer is set. -/
theorem arena_sibling (s : Tree_ori) (i : ℕ) (c : Option ℕ) :
    (s.modify i fun tn => { tn with sibling := c }).arena =
      { s.arena with sibling := Function.update s.arena.sibling i c } := by
  unfold arena modify
  simp only [field_update (fun tn => tn.parent), field_update (fun tn => tn.child),
    field_update (fun tn => tn.sibling), field_update (fun tn => tn.body.id)]
  congr 1 <;> exact Function.update_eq_self _ _

/-- The first level adds its node to the arena. -/
theorem arena_firstLevel (s : Tree_ori) (te : lsa_body_ori) :
    (s.firstLevel te).arena = s.arena.addFirst te.id := by
  unfold firstLevel Arena.addFirst
  by_cases hused : te.id ∈ s.used
  · rw [if_pos hused, if_pos (show te.id ∈ s.arena.used from hused)]
  · rw [if_neg hused, if_neg (show te.id ∉ s.arena.used from hused)]
    dsimp only
    rw [arena_child, arena_malloc]
    rfl

/-- The arena and the last node of the level. -/
def arenas (s : Tree_ori × Option ℕ) : Arena keytype × Option ℕ := (s.1.arena, s.2)

/-- The first child, if there is none yet. -/
theorem arena_firstChild (t : Tree_ori) (tp ts : ℕ) :
    (if (t.node tp).child = none then t.modify tp fun tn => { tn with child := some ts } else t).arena =
      { t.arena with
        child := if t.arena.child tp = none then Function.update t.arena.child tp (some ts)
          else t.arena.child } := by
  by_cases h : (t.node tp).child = none
  · rw [if_pos h, if_pos (show t.arena.child tp = none from h), arena_child]
  · rw [if_neg h, if_neg (show t.arena.child tp ≠ none from h)]

/-- An entry of an LSA is the arena's addition. -/
theorem arenas_addEntry (tp : ℕ) (s : Tree_ori × Option ℕ) (te : lsa_body_ori) :
    arenas (addEntry tp s te) = Arena.add tp (arenas s) te.id := by
  obtain ⟨s, ots⟩ := s
  unfold addEntry Arena.add
  by_cases hused : te.id ∈ s.used
  · rw [if_pos hused, if_pos (show te.id ∈ (arenas (s, ots)).1.used from hused)]
  · rw [if_neg hused, if_neg (show te.id ∉ (arenas (s, ots)).1.used from hused)]
    unfold arenas
    dsimp only
    rw [arena_firstChild]
    cases ots with
    | none =>
      dsimp only
      rw [arena_malloc]
      rfl
    | some ots =>
      dsimp only
      rw [arena_sibling, arena_malloc]
      rfl

/-- The entries of an LSA are the arena's additions, in order. -/
theorem arenas_foldl (tp : ℕ) (l : List lsa_body_ori) (s : Tree_ori × Option ℕ) :
    arenas (l.foldl (addEntry tp) s) = (l.map lsa_body_ori.id).foldl (Arena.add tp) (arenas s) := by
  induction l generalizing s with
  | nil => rfl
  | cons te l ih => rw [List.foldl_cons, List.map_cons, List.foldl_cons, ih, arenas_addEntry]

/-- The own LSA gives the first level of the arena. -/
theorem arena_foldl (l : List lsa_body_ori) (s : Tree_ori) :
    (l.foldl firstLevel s).arena = (l.map lsa_body_ori.id).foldl Arena.addFirst s.arena := by
  induction l generalizing s with
  | nil => rfl
  | cons te l ih => rw [List.foldl_cons, List.map_cons, List.foldl_cons, ih, arena_firstLevel]

/-- The ids in the list of a router. -/
def idsOf (lists : List (lsa_list lsa_body_ori)) (k : keytype) : List keytype :=
  (lsasOf lists k).map lsa_body_ori.id

/-- One level of the tree is one level of the arena. -/
theorem arenas_level (lists : List (lsa_list lsa_body_ori)) (n : ℕ) (s : Tree_ori × Option ℕ) (q : Option ℕ) :
    (level lists n s q).map arenas = Arena.level (idsOf lists) n (arenas s) q := by
  induction n generalizing s q with
  | zero => cases q <;> rfl
  | succ n ih =>
    cases q with
    | none => rfl
    | some tp =>
      unfold level Arena.level
      dsimp only
      rw [ih, arenas_foldl]
      have hid : (s.1.node tp).body.id = (arenas s).1.id tp := rfl
      have hsib : (((lsasOf lists (s.1.node tp).body.id).foldl (addEntry tp) s).1.node tp).sibling =
          (arenas ((lsasOf lists (s.1.node tp).body.id).foldl (addEntry tp) s)).1.sibling tp := rfl
      rw [hsib, arenas_foldl, hid]
      rfl

/-- The search for the next parent is the arena's. -/
theorem arena_skipChildless (s : Tree_ori) (n tp : ℕ) :
    (s.skipChildless n tp).map (fun tp => (s.node tp).child) = s.arena.firstChild n tp := by
  induction n generalizing tp with
  | zero => rfl
  | succ n ih =>
    unfold skipChildless Arena.firstChild
    have hchild : s.arena.child tp = (s.node tp).child := rfl
    have hsib : s.arena.sibling tp = (s.node tp).sibling := rfl
    rw [hchild, hsib]
    cases hc : (s.node tp).child with
    | some c =>
      dsimp only
      rw [Option.map_some, hc]
    | none =>
      cases hs : (s.node tp).sibling with
      | some q => exact ih q
      | none =>
        dsimp only
        rw [Option.map_some, hc]

/-- All levels of the tree are the arena's levels. -/
theorem arena_levels (fuel n : ℕ) (s : Tree_ori) (q : Option ℕ) :
    (levels lists fuel n s q).map arena = Arena.levels (idsOf lists) fuel n s.arena q := by
  induction n generalizing s q with
  | zero => cases q <;> rfl
  | succ n ih =>
    cases q with
    | none => rfl
    | some otp =>
      unfold levels Arena.levels
      have hlevel := arenas_level lists fuel (s, none) (some otp)
      have hs : arenas (s, none) = (s.arena, none) := rfl
      rw [hs] at hlevel
      rw [← hlevel]
      cases hl : level lists fuel (s, none) (some otp) with
      | none => rfl
      | some t =>
        rw [Option.map_some, Option.bind_some, Option.bind_some]
        have hpar : (arenas t).1.parent otp = (t.1.node otp).parent := rfl
        rw [hpar]
        cases hp : (t.1.node otp).parent with
        | none => rfl
        | some p =>
          rw [Option.bind_some, Option.bind_some]
          have hch : (arenas t).1.child p = (t.1.node p).child := rfl
          rw [hch]
          cases hc : (t.1.node p).child with
          | none => rfl
          | some tp =>
            rw [Option.bind_some, Option.bind_some]
            have hskip := arena_skipChildless t.1 fuel tp
            have ht : (arenas t).1 = t.1.arena := rfl
            rw [ht, ← hskip]
            cases hk : t.1.skipChildless fuel tp with
            | none => rfl
            | some tp' =>
              rw [Option.map_some, Option.bind_some, Option.bind_some]
              exact ih t.1 _

end Tree_ori

/-- The tree of a database is the one that is built level by level. -/
theorem arena_tree_ori (od : ospf_d_ori) (fuel : ℕ) :
    (ospf_tree_ori od fuel).map Tree_ori.arena =
      Arena.build (Tree_ori.idsOf od.lsa_lists) (od.self_lsas.map lsa_body_ori.id) fuel od.rid := by
  unfold ospf_tree_ori Arena.build
  dsimp only
  rw [Tree_ori.arena_levels, Tree_ori.arena_foldl]
  have hchild : ((od.self_lsas.foldl Tree_ori.firstLevel (.start od.rid)).node 0).child =
      (od.self_lsas.foldl Tree_ori.firstLevel (.start od.rid)).arena.child 0 := rfl
  rw [hchild, Tree_ori.arena_foldl]
  rfl

/-! ## What can be reached -/

/-- An entry of a router is in some LSA list of it. -/
theorem mem_lsasOf {β : Type} {lists : List (lsa_list β)} {k : keytype} {te : β} (h : te ∈ lsasOf lists k) :
    ∃ l ∈ lists, l.id = k ∧ te ∈ l.lsa := by
  unfold lsasOf at h
  cases hl : ospf_get_lsa_list lists k with
  | none =>
    rw [hl] at h
    exact absurd h List.not_mem_nil
  | some l =>
    rw [hl] at h
    exact ⟨l, Keyed.mem_of_get hl, Keyed.key_of_get hl, h⟩

/-- The ids of all entries, and the router itself. -/
def universe_ori (od : ospf_d_ori) : List keytype :=
  od.rid :: (od.self_lsas.map lsa_body_ori.id ++
    od.lsa_lists.flatMap fun l => l.lsa.map lsa_body_ori.id)

/-- The routers that can occur, counted. -/
theorem length_universe_ori (od : ospf_d_ori) : (universe_ori od).length = od.bound := by
  unfold universe_ori ospf_d_ori.bound
  rw [List.length_cons, List.length_append, List.length_map, List.length_flatMap]
  simp only [List.length_map]

/-- The links of another router are those of its LSA. -/
theorem links_of_ne {rid k : keytype} {self : List keytype} {lists : keytype → List keytype}
    (h : k ≠ rid) : links rid self lists k = lists k := by
  unfold links
  exact Function.update_of_ne h _ _

/-- The own links are those of the own LSA. -/
theorem links_self (rid : keytype) (self : List keytype) (lists : keytype → List keytype) :
    links rid self lists rid = self := by
  unfold links
  exact Function.update_self _ _ _

/-- Every router that can be reached occurs. -/
theorem mem_universe_ori (od : ospf_d_ori) (m : ℕ) (v : keytype) (h : Reach od.links od.rid m v) :
    v ∈ universe_ori od := by
  cases h with
  | refl => exact List.mem_cons_self
  | tail hu hw =>
    rename_i u
    refine List.mem_cons_of_mem _ (List.mem_append.2 ?_)
    by_cases hrid : u = od.rid
    · have hself : od.links u = od.self_lsas.map lsa_body_ori.id := by
        rw [hrid]
        exact links_self _ _ _
      exact .inl (hself ▸ hw)
    · have hlists : od.links u = (lsasOf od.lsa_lists u).map lsa_body_ori.id := links_of_ne hrid
      rw [hlists] at hw
      obtain ⟨te, hte, rfl⟩ := List.mem_map.1 hw
      obtain ⟨l, hl, -, hmem⟩ := mem_lsasOf hte
      exact .inr (List.mem_flatMap.2 ⟨l, hl, List.mem_map_of_mem hmem⟩)

/-- Building ends, and the tree is complete. -/
theorem tree_ori_spec (od : ospf_d_ori) {fuel : ℕ} (hfuel : od.bound ≤ fuel) :
    ∃ tree, ospf_tree_ori od fuel = some tree ∧ Arena.Complete od.links od.rid tree.arena := by
  have hself : od.links od.rid = od.self_lsas.map lsa_body_ori.id := links_self _ _ _
  have hlists : ∀ v, v ≠ od.rid → Tree_ori.idsOf od.lsa_lists v = od.links v :=
    fun v hv => (links_of_ne hv).symm
  obtain ⟨a, ha, hcomplete⟩ := Arena.build_spec (mem_universe_ori od) (length_universe_ori od ▸ hfuel) hlists
  rw [hself, ← arena_tree_ori] at ha
  obtain ⟨tree, htree, rfl⟩ := Option.map_eq_some_iff.1 ha
  exact ⟨tree, htree, hcomplete⟩

/-! ## Routes by way of the neighbours before -/

section Known

variable {od : ospf_d_ori} {t : Arena keytype} {fuel ts : ℕ} {pre post : List ℕ} {ne : ℕ → neighbor}
  {junk : keytype → keytype} {type : ℕ → UInt8}

/-- The chain of the first level holds the children of the root. -/
theorem mem_walk (h : Arena.Complete od.links od.rid t) (hfuel : t.size ≤ fuel) (w : ℕ) :
    w ∈ PtrChain.walk t.sibling fuel (t.child 0) ↔ w < t.size ∧ t.parent w = some 0 := by
  rw [(h.walk_top hfuel).1]
  exact (h.mem_kids h.pos hfuel).2 w

/-- A neighbour in the tree comes from `self_lsas`. -/
theorem neighbor_of_parent (h : Arena.Complete od.links od.rid t) {w : ℕ} (hw : w < t.size)
    (hpar : t.parent w = some 0) : t.id w ∈ od.links od.rid ∧ t.id w ≠ od.rid := by
  refine ⟨h.rootId ▸ (h.depth w hw 0 hpar).1, fun he => ?_⟩
  obtain rfl := h.inj w hw 0 h.pos (he.trans h.rootId.symm)
  rw [h.rootParent] at hpar
  cases hpar

/-- Each neighbour has a node on the first level. -/
theorem parent_of_neighbor (h : Arena.Complete od.links od.rid t) {x : keytype}
    (hx : x ∈ od.links od.rid) (hne : x ≠ od.rid) :
    ∃ w < t.size, t.id w = x ∧ t.parent w = some 0 := by
  have hdist : HopDist od.links od.rid 1 x := by
    refine ⟨.tail .refl hx, fun n hn => ?_⟩
    by_contra hlt
    obtain rfl : n = 0 := by omega
    exact hne (Arena.reach_zero hn)
  obtain ⟨w, hw, hid, hup⟩ := h.exists_node hdist
  rw [Arena.up_succ] at hup
  exact ⟨w, hw, hid, hup⟩

/-- The neighbours in front of another one are those behind it in `self_lsas`. -/
theorem mem_front_iff (h : Arena.Complete od.links od.rid t) (hfuel : t.size ≤ fuel)
    (hwalk : PtrChain.walk t.sibling fuel (t.child 0) = pre ++ ts :: post) (w : ℕ) :
    w ∈ pre ↔ w < t.size ∧ t.parent w = some 0 ∧ ts < w := by
  have hsorted := (h.walk_top hfuel).2
  rw [← (h.walk_top hfuel).1, hwalk, List.pairwise_append, List.pairwise_cons] at hsorted
  have hmem := mem_walk h hfuel w
  rw [hwalk] at hmem
  constructor
  · intro hw
    obtain ⟨hlt, hpar⟩ := hmem.1 (List.mem_append_left _ hw)
    exact ⟨hlt, hpar, hsorted.2.2 w hw ts List.mem_cons_self⟩
  · rintro ⟨hlt, hpar, hgt⟩
    rcases List.mem_append.1 (hmem.2 ⟨hlt, hpar⟩) with hpre | hcons
    · exact hpre
    · rcases List.mem_cons.1 hcons with rfl | hpost
      · exact absurd hgt (Nat.lt_irrefl _)
      · have := hsorted.2.1.1 w hpost
        omega

/-- The first level stands in the order of the own LSA. -/
theorem listed_iff (h : Arena.Complete od.links od.rid t) {v w : ℕ} (hv : v < t.size) (hw : w < t.size)
    (hpv : t.parent v = some 0) (hpw : t.parent w = some 0) :
    (od.links od.rid).idxOf (t.id v) < (od.links od.rid).idxOf (t.id w) ↔ v < w := by
  constructor
  · intro hlt
    by_contra hge
    rcases Nat.lt_or_eq_of_le (Nat.not_lt.1 hge) with hwv | rfl
    · have := h.listed w v hwv hv hpw hpv
      omega
    · exact absurd hlt (Nat.lt_irrefl _)
  · exact fun hvw => h.listed v w hvw hw hpv hpw

/-- When the lookup for a neighbour's route fails. -/
theorem known_iff (h : Arena.Complete od.links od.rid t) (hfuel : t.size ≤ fuel)
    (hwalk : PtrChain.walk t.sibling fuel (t.child 0) = pre ++ ts :: post) (v : keytype) :
    ¬ od.Known (t.id ts) v ↔ rtb_find od.route v = none ∧
      v ∉ (pre.flatMap (routesVia t type ne fuel)).map mesh_rte.target := by
  have hts : ts < t.size ∧ t.parent ts = some 0 := by
    refine (mem_walk h hfuel ts).1 ?_
    rw [hwalk]
    exact List.mem_append_right _ List.mem_cons_self
  unfold ospf_d_ori.Known
  rw [not_or, Option.not_isSome_iff_eq_none]
  refine and_congr Iff.rfl (not_congr ?_)
  rw [List.map_flatMap, List.mem_flatMap]
  constructor
  · rintro ⟨x, hx, hne, hlt, d, hdist, hr⟩
    obtain ⟨w, hw, rfl, hpar⟩ := parent_of_neighbor h hx hne
    obtain ⟨j, hj, rfl, hup⟩ := h.exists_node hdist
    rw [Arena.up_succ] at hup
    obtain ⟨y, hup, hpary⟩ := Option.bind_eq_some_iff.1 hup
    have hy : y < t.size := by
      have := h.up_le hj hup
      omega
    -- the tree reaches the vertex by way of `w` or of a neighbour that was allocated after it
    have hwy := h.firstHop j hj d y hup hpary w hw hpar hr
    have htsw := (listed_iff h hts.1 hw hts.2 hpar).1 hlt
    exact ⟨y, (mem_front_iff h hfuel hwalk y).2 ⟨hy, hpary, by omega⟩,
      (mem_routesVia h.toTree hfuel hy ne _).2 ⟨j, hj, d, hup, rfl⟩⟩
  · rintro ⟨w, hwpre, hmem⟩
    obtain ⟨hw, hpar, htsw⟩ := (mem_front_iff h hfuel hwalk w).1 hwpre
    obtain ⟨j, hj, d, hup, rfl⟩ := (mem_routesVia h.toTree hfuel hw ne v).1 hmem
    obtain ⟨hx, hne⟩ := neighbor_of_parent h hw hpar
    refine ⟨t.id w, hx, hne, (listed_iff h hts.1 hw hts.2 hpar).2 htsw, d, ?_, h.reach_of_up hj hup⟩
    exact h.hopDist_of_up hj (by rw [Arena.up_succ, hup]; exact hpar)

/-- Fresh routes, read off the chain of the first level. -/
theorem freshRoutes_iff (ne : ℕ → neighbor) (type : ℕ → UInt8) (h : Arena.Complete od.links od.rid t) (hfuel : t.size ≤ fuel) :
    od.FreshRoutes junk ↔
      ∀ pre ts post, PtrChain.walk t.sibling fuel (t.child 0) = pre ++ ts :: post →
        rtb_find od.route (t.id ts) = none → rtb_find od.route (junk (t.id ts)) = none ∧
          junk (t.id ts) ∉ (pre.flatMap (routesVia t type ne fuel)).map mesh_rte.target := by
  constructor
  · intro hfresh pre ts post hwalk hnone
    have hts := (mem_walk h hfuel ts).1 (hwalk ▸ List.mem_append_right _ List.mem_cons_self)
    obtain ⟨hx, hne⟩ := neighbor_of_parent h hts.1 hts.2
    exact (known_iff h hfuel hwalk _).1 (hfresh _ hx hne hnone)
  · intro hcond x hx hne hnone
    obtain ⟨w, hw, rfl, hpar⟩ := parent_of_neighbor h hx hne
    obtain ⟨pre, post, hwalk⟩ := List.append_of_mem ((mem_walk h hfuel w).2 ⟨hw, hpar⟩)
    exact (known_iff h hfuel hwalk _).2 (hcond pre w post hwalk hnone)

end Known

/-! ## Shortest paths -/

/-- **Shortest paths.** The tree and the routes are made for every database, and they are those of the
shortest paths if and only if no new route of a neighbour has had the target of a route in the table in its
memory. -/
theorem ospf_build_tree_ori_shortest (od : ospf_d_ori) (junk : keytype → keytype) {fuel : ℕ}
    (hfuel : od.bound ≤ fuel)
    (hne : ∀ te ∈ od.self_lsas, te.id ≠ od.rid → (neigh_find od.neighbors te.id).isSome)
    (hroute : (od.route.map mesh_rte.target).Nodup) :
    ∃ tree rtb, ospf_build_tree_ori od junk fuel = some (tree, rtb) ∧
      (ShortestPaths od.links od.rid tree.arena rtb ↔ od.FreshRoutes junk) := by
  obtain ⟨tree, htree, h⟩ := tree_ori_spec od hfuel
  have hsize : tree.arena.size ≤ fuel := by
    refine Nat.le_trans (h.toTree.size_le (U := universe_ori od) fun v hv => ?_)
      (length_universe_ori od ▸ hfuel)
    obtain ⟨m, hr⟩ := (h.reach v).1 hv
    exact mem_universe_ori od m v hr
  have hself : od.links od.rid = od.self_lsas.map lsa_body_ori.id := links_self _ _ _
  have hneigh : ∀ ts, ∃ ne, ts < tree.arena.size → tree.arena.parent ts = some 0 →
      neigh_find od.neighbors (tree.arena.id ts) = some ne := by
    intro ts
    by_cases hts : ts < tree.arena.size ∧ tree.arena.parent ts = some 0
    · obtain ⟨hmem, hid⟩ := neighbor_of_parent h hts.1 hts.2
      rw [hself] at hmem
      obtain ⟨te, hte, heq⟩ := List.mem_map.1 hmem
      obtain ⟨ne, hfind⟩ := Option.isSome_iff_exists.1 (hne te hte (heq ▸ hid))
      exact ⟨ne, fun _ _ => heq ▸ hfind⟩
    · exact ⟨⟨od.rid, 0⟩, fun hlt hpar => absurd ⟨hlt, hpar⟩ hts⟩
  choose ne hne' using hneigh
  obtain ⟨rtb, hrun, -⟩ := make_route_ends junk (fun i => (tree.node i).body.type)
    h.toTree hsize hne' hroute
  have hbuild : ospf_build_tree_ori od junk fuel = some (tree, rtb) := by
    unfold ospf_build_tree_ori ospf_make_route_ori
    rw [htree, Option.bind_some, hrun]
    rfl
  refine ⟨tree, rtb, hbuild, ?_⟩
  have hl : ∀ ts ∈ PtrChain.walk tree.arena.sibling fuel (tree.arena.child 0),
      ts < tree.arena.size ∧ neigh_find od.neighbors (tree.arena.id ts) = some (ne ts) := by
    intro ts hts
    obtain ⟨hlt, hpar⟩ := (mem_walk h hsize ts).1 hts
    exact ⟨hlt, hne' ts hlt hpar⟩
  rw [freshRoutes_iff ne (fun i => (tree.node i).body.type) h hsize,
    ← fresh_iff h.toTree hsize hl (nodup_routesVia _ h.toTree hsize ne) hroute,
    make_route_iff h.toTree hsize hne' hroute hrun]
  obtain ⟨honce, hexact⟩ := h.contents_spec
  constructor
  · intro hpaths j hj d hup
    obtain ⟨rte, hrte, hhop, j', hj', hid, ts, hts, hnext⟩ := hpaths.routes _ d (h.hopDist_of_up hj hup)
    obtain rfl := h.inj j' hj' j hj hid
    exact ⟨rte, hrte, hhop, ts, hts, hnext⟩
  · intro hroutes
    refine ⟨honce, hexact, fun v d hv => ?_⟩
    obtain ⟨j, hj, rfl, hup⟩ := h.exists_node hv
    obtain ⟨rte, hrte, hhop, ts, hts, hnext⟩ := hroutes j hj d hup
    exact ⟨rte, hrte, hhop, j, hj, rfl, ts, hts, hnext⟩

/-- The routers 1, 2 and 3 in a line. -/
def lineDatabase : ospf_d_ori where
  rid := 1
  self_lsas := [⟨2, 0, 0⟩]
  lsa_lists := [⟨2, 0, [⟨1, 0, 0⟩, ⟨3, 0, 0⟩]⟩]
  neighbors := [⟨2, 0⟩]
  route := []

/-- Three routers in a line. -/
theorem ospf_build_tree_ori_shortest_line :
    ∃ tree rtb, ospf_build_tree_ori lineDatabase (fun _ => 0) 4 = some (tree, rtb) ∧
      ShortestPaths lineDatabase.links lineDatabase.rid tree.arena rtb := by
  obtain ⟨tree, rtb, hbuild, hiff⟩ := ospf_build_tree_ori_shortest lineDatabase (fun _ => 0)
    (by decide : lineDatabase.bound ≤ 4) (by decide) (by decide)
  refine ⟨tree, rtb, hbuild, hiff.2 ?_⟩
  intro x hx _ _ hknown
  have hlinks : lineDatabase.links lineDatabase.rid = [2] := by decide
  rw [hlinks, List.mem_singleton] at hx
  subst hx
  rcases hknown with hold | ⟨w, hw, -, hlt, -⟩
  · exact absurd hold (by decide)
  · rw [hlinks, List.mem_singleton] at hw
    subst hw
    exact Nat.lt_irrefl _ hlt

/-- The neighbours 2 and 3 of the router 1. -/
def twoNeighbors : ospf_d_ori where
  rid := 1
  self_lsas := [⟨2, 0, 0⟩, ⟨3, 0, 0⟩]
  lsa_lists := []
  neighbors := [⟨2, 0⟩, ⟨3, 0⟩]
  route := []

/-- The route of 3 is made first. The new route of 2 has had 3 in its memory, and is not linked. -/
theorem neighbor_without_route :
    ∃ tree rtb, ospf_build_tree_ori twoNeighbors (fun _ => 3) 3 = some (tree, rtb) ∧
      ¬ ShortestPaths twoNeighbors.links twoNeighbors.rid tree.arena rtb := by
  have hrun : (ospf_build_tree_ori twoNeighbors (fun _ => 3) 3).map (fun x => rtb_find x.2 2) =
      some none := by decide
  obtain ⟨⟨tree, rtb⟩, hbuild, hnone⟩ := Option.map_eq_some_iff.1 hrun
  refine ⟨tree, rtb, hbuild, fun hpaths => ?_⟩
  have hdist : HopDist twoNeighbors.links twoNeighbors.rid 1 2 := by
    refine ⟨.tail .refl (by decide), fun n hn => ?_⟩
    by_contra hlt
    obtain rfl : n = 0 := by omega
    have heq := Arena.reach_zero hn
    exact absurd heq (by decide)
  obtain ⟨rte, hrte, -⟩ := hpaths.routes 2 0 hdist
  rw [hnone] at hrte
  cases hrte

end Mesh
