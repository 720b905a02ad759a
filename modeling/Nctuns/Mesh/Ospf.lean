import Mathlib.Algebra.Order.Ring.Int
import Nctuns.Lib.Keyed
import Nctuns.Lib.LevelTree

/-!
# The trees and routes of the mesh OSPF

`ospf_build_tree_ori` of `ospf.cc` reads the link-state database of a router level by level into a tree of
nodes with a parent, a first child and a next sibling, and makes a route to each of them. A node is named
by the number of its allocation. Loops over pointers have a number of rounds that they may not pass.
-/

namespace Mesh

/-- Six bytes, of which only equality matters. -/
abbrev keytype := BitVec 48

/-- The state of a link: the router at its other end. -/
structure lsa_body_ori where
  id : keytype
  state : UInt8
  type : UInt8
  deriving DecidableEq, Repr

/-- What was heard of the neighbours of the router `id`. -/
structure lsa_list (β : Type) where
  id : keytype
  seq : UInt16
  lsa : List β
  deriving DecidableEq, Repr

/-- A record of a neighbour and the interface to it. -/
structure neighbor where
  id : keytype
  iface : ℕ
  deriving DecidableEq, Repr

/-- An entry of the routing table. -/
structure mesh_rte where
  type : UInt8
  target : keytype
  nexthop : keytype
  hop : Int
  timestamp : ℕ
  weight : UInt8
  iface : ℕ
  deriving DecidableEq, Repr

/-! ## The routing table -/

/-- The entry for a target. -/
def rtb_find (rtb : List mesh_rte) (k : keytype) : Option mesh_rte := Keyed.get mesh_rte.target k rtb

/-- A new entry, unless there is one for its target. -/
def rtb_add (rtb : List mesh_rte) (rte : mesh_rte) : List mesh_rte :=
  if (rtb_find rtb rte.target).isSome then rtb else rte :: rtb

/-- `rtb_del` of the entry that `rtb_find` finds. -/
def rtb_del (rtb : List mesh_rte) (k : keytype) : List mesh_rte := Keyed.remove mesh_rte.target k rtb

/-- The record of a neighbour. -/
def neigh_find (l : List neighbor) (k : keytype) : Option neighbor := Keyed.get neighbor.id k l

open LevelTree (Arena)

/-- `ospf_set_route_ori` and `ospf_set_route_etx`: the route of the node and of all below it. -/
def ospf_set_route (t : Arena keytype) (fuel : ℕ) :
    ℕ → List mesh_rte → ℕ → mesh_rte → Option (List mesh_rte)
  | 0, _, _, _ => none
  | n + 1, rtb, tn, prte =>
    let rte := { prte with target := t.id tn, hop := prte.hop + 1 }
    let rtb := rtb_add (rtb_del rtb (t.id tn)) rte
    (t.kids tn fuel (t.child tn)).foldlM (fun rtb tc => ospf_set_route t fuel n rtb tc rte) rtb

/-- The route of a child of the root; no field keeps its value. -/
def neighborRoute (id : keytype) (type : UInt8) (ne : neighbor) : mesh_rte where
  type := type
  target := id
  nexthop := id
  hop := 1
  timestamp := 0
  weight := 1
  iface := ne.iface

/-- One round of the loop of `ospf_make_route_ori` and `ospf_make_route_etx`. `junk` is the
target that `malloc` leaves in the new route of a neighbour: `rtb_add` looks for it before it is set. -/
def routeRound (neighbors : List neighbor) (junk : keytype → keytype) (t : Arena keytype) (type : ℕ → UInt8)
    (fuel : ℕ) (rtb : List mesh_rte) (ts : ℕ) : Option (List mesh_rte) :=
  (neigh_find neighbors (t.id ts)).bind fun ne =>
  let rte := neighborRoute (t.id ts) (type ts) ne
  let rtb :=
    if (rtb_find rtb (t.id ts)).isSome then Keyed.update mesh_rte.target (t.id ts) (fun _ => rte) rtb
    else if (rtb_find rtb (junk (t.id ts))).isSome then rtb
    else rte :: rtb
  (t.kids ts fuel (t.child ts)).foldlM (fun rtb tc => ospf_set_route t fuel fuel rtb tc rte) rtb

/-- `ospf_make_route_ori` and `ospf_make_route_etx` -/
def ospf_make_route (neighbors : List neighbor) (junk : keytype → keytype) (t : Arena keytype)
    (type : ℕ → UInt8) (fuel : ℕ) (rtb : List mesh_rte) : Option (List mesh_rte) :=
  (PtrChain.walk t.sibling fuel (t.child 0)).foldlM (routeRound neighbors junk t type fuel) rtb

/-! ## The tree -/

/-- A node of the tree: its links, and the router that it stands for. -/
structure ospf_tnode_ori where
  parent : Option ℕ
  child : Option ℕ
  sibling : Option ℕ
  body : lsa_body_ori
  deriving DecidableEq, Repr

/-- What a router knows: its own links, the lists of the others, its neighbours and its routes. -/
structure ospf_d_ori where
  rid : keytype
  self_lsas : List lsa_body_ori
  lsa_lists : List (lsa_list lsa_body_ori)
  neighbors : List neighbor
  route : List mesh_rte
  deriving DecidableEq, Repr

/-- The list of a router. -/
def ospf_get_lsa_list {β : Type} (lists : List (lsa_list β)) (k : keytype) : Option (lsa_list β) :=
  Keyed.get lsa_list.id k lists

/-- The entries of the list of a router, if there is one. -/
def lsasOf {β : Type} (lists : List (lsa_list β)) (k : keytype) : List β :=
  ((ospf_get_lsa_list lists k).map lsa_list.lsa).getD []

/-- The nodes that were allocated, and the ids that are in the tree, the newest first. -/
structure Tree_ori where
  size : ℕ
  node : ℕ → ospf_tnode_ori
  used : List keytype

namespace Tree_ori

/-- A new node of the tree. -/
def malloc (s : Tree_ori) (tn : ospf_tnode_ori) : Tree_ori :=
  { s with size := s.size + 1, node := Function.update s.node s.size tn }

/-- A node of the tree is written. -/
def modify (s : Tree_ori) (i : ℕ) (f : ospf_tnode_ori → ospf_tnode_ori) : Tree_ori :=
  { s with node := Function.update s.node i (f (s.node i)) }

/-- The root alone. -/
def start (rid : keytype) : Tree_ori where
  size := 1
  node _ := ⟨none, none, none, ⟨rid, 0, 0⟩⟩
  used := [rid]

/-- One entry of `self_lsas`. -/
def firstLevel (s : Tree_ori) (te : lsa_body_ori) : Tree_ori :=
  if te.id ∈ s.used then s
  else
    let ts := s.size
    let s := { s with used := te.id :: s.used }
    let s := s.malloc { parent := some 0, child := none, sibling := (s.node 0).child, body := te }
    s.modify 0 fun tp => { tp with child := some ts }

/-- One entry of the list of the node `tp`; `ots` is the last node of the next level. -/
def addEntry (tp : ℕ) (s : Tree_ori × Option ℕ) (te : lsa_body_ori) : Tree_ori × Option ℕ :=
  if te.id ∈ s.1.used then s
  else
    let ts := s.1.size
    let t := { s.1 with used := te.id :: s.1.used }
    let t := t.malloc { parent := some tp, child := none, sibling := none, body := te }
    let t : Tree_ori :=
      match s.2 with
      | none => t
      | some ots => t.modify ots fun tn => { tn with sibling := some ts }
    let t := if (t.node tp).child = none then t.modify tp fun tn => { tn with child := some ts } else t
    (t, some ts)

/-- The inner loop, over the siblings of a level. -/
def level (lists : List (lsa_list lsa_body_ori)) :
    ℕ → Tree_ori × Option ℕ → Option ℕ → Option (Tree_ori × Option ℕ)
  | _, s, none => some s
  | 0, _, some _ => none
  | n + 1, s, some tp =>
    let s := (lsasOf lists (s.1.node tp).body.id).foldl (addEntry tp) s
    level lists n s (s.1.node tp).sibling

/-- `while (tp->child == NULL && tp->sibling != NULL) tp = tp->sibling;` -/
def skipChildless (s : Tree_ori) : ℕ → ℕ → Option ℕ
  | 0, _ => none
  | n + 1, tp =>
    match (s.node tp).child, (s.node tp).sibling with
    | none, some q => skipChildless s n q
    | _, _ => some tp

/-- The outer loop; `otp` is the first node of a level. -/
def levels (lists : List (lsa_list lsa_body_ori)) (fuel : ℕ) : ℕ → Tree_ori → Option ℕ → Option Tree_ori
  | _, s, none => some s
  | 0, _, some _ => none
  | n + 1, s, some otp =>
    (level lists fuel (s, none) (some otp)).bind fun s =>
    (s.1.node otp).parent.bind fun p =>
    (s.1.node p).child.bind fun tp =>
    (s.1.skipChildless fuel tp).bind fun tp =>
    levels lists fuel n s.1 (s.1.node tp).child

/-- The pointers and ids of the nodes. -/
def arena (s : Tree_ori) : Arena keytype where
  size := s.size
  parent i := (s.node i).parent
  child i := (s.node i).child
  sibling i := (s.node i).sibling
  id i := (s.node i).body.id
  used := s.used

end Tree_ori

/-- The routes to the nodes of the tree. -/
def ospf_make_route_ori (od : ospf_d_ori) (junk : keytype → keytype) (tree : Tree_ori) (fuel : ℕ) :
    Option (List mesh_rte) :=
  ospf_make_route od.neighbors junk tree.arena (fun i => (tree.node i).body.type) fuel od.route

/-- The nodes of the tree of `ospf_build_tree_ori`. -/
def ospf_tree_ori (od : ospf_d_ori) (fuel : ℕ) : Option Tree_ori :=
  let s := od.self_lsas.foldl Tree_ori.firstLevel (.start od.rid)
  Tree_ori.levels od.lsa_lists fuel fuel s (s.node 0).child

/-- `ospf_build_tree_ori`: the tree and the routing table. -/
def ospf_build_tree_ori (od : ospf_d_ori) (junk : keytype → keytype) (fuel : ℕ) :
    Option (Tree_ori × List mesh_rte) :=
  (ospf_tree_ori od fuel).bind fun tree =>
  (ospf_make_route_ori od junk tree fuel).map fun route => (tree, route)

/-! ## Shortest paths -/

/-- The links of a database: those of the router itself are in `self`. -/
def links (rid : keytype) (self : List keytype) (lists : keytype → List keytype) : keytype → List keytype :=
  Function.update lists rid self

/-- The links of the database: the own ones, and those of the lists. -/
def ospf_d_ori.links (od : ospf_d_ori) : keytype → List keytype :=
  Mesh.links od.rid (od.self_lsas.map lsa_body_ori.id) fun k =>
    (lsasOf od.lsa_lists k).map lsa_body_ori.id

/-- The number of entries, and the router itself. -/
def ospf_d_ori.bound (od : ospf_d_ori) : ℕ :=
  od.self_lsas.length + (od.lsa_lists.map fun l => l.lsa.length).sum + 1

/-- Every router that can be reached is in the tree once, at its distance, and there is no other; its
route has the distance and leads to the neighbour at the start of its path in the tree. -/
structure ShortestPaths (links : keytype → List keytype) (rid : keytype) (t : Arena keytype)
    (rtb : List mesh_rte) : Prop where
  once : (t.contents.map Prod.fst).Nodup
  exact : ∀ v d, (v, d) ∈ t.contents ↔ LevelTree.HopDist links rid d v
  routes : ∀ v d, LevelTree.HopDist links rid (d + 1) v → ∃ rte, rtb_find rtb v = some rte ∧
    rte.hop = d + 1 ∧ ∃ j < t.size, t.id j = v ∧ ∃ ts, t.up d j = some ts ∧ rte.nexthop = t.id ts

/-- The targets with a route when that of the neighbour `x` is made: those from before, and those by way of
the neighbours behind `x` in `self_lsas`, which come first. -/
def ospf_d_ori.Known (od : ospf_d_ori) (x v : keytype) : Prop :=
  (rtb_find od.route v).isSome ∨ ∃ w ∈ od.links od.rid, w ≠ od.rid ∧
    (od.links od.rid).idxOf x < (od.links od.rid).idxOf w ∧
    ∃ d, LevelTree.HopDist od.links od.rid (d + 1) v ∧ LevelTree.Reach od.links w d v

/-- The memory of the new route of a neighbour never holds the target of a route in the table. -/
def ospf_d_ori.FreshRoutes (od : ospf_d_ori) (junk : keytype → keytype) : Prop :=
  ∀ x ∈ od.links od.rid, x ≠ od.rid → rtb_find od.route x = none → ¬ od.Known x (junk x)

end Mesh
