import Mathlib.Data.List.Basic
import Mathlib.Logic.Relation

/-!
# Graphs of links

Vertices and links between them; `adj l x y` says that the link `l` joins `x` and `y`, and there may
be several links between two vertices. A cycle is a closed walk that uses no link twice. Where links
only lead from vertices to their parents of smaller rank there is none, and where also every vertex
but one has such a link the graph is a tree.
-/

namespace LinkGraph

variable {V L : Type*} {adj : L → V → V → Prop}

/-- A walk from one vertex to another along some links. -/
inductive Walk (adj : L → V → V → Prop) : V → List L → V → Prop
  | nil (x : V) : Walk adj x [] x
  | cons {l : L} {x y z : V} {ls : List L} (h : adj l x y) (w : Walk adj y ls z) :
      Walk adj x (l :: ls) z

/-- A walk leads from everywhere to everywhere. -/
def Connected (adj : L → V → V → Prop) : Prop := ∀ x y, ∃ ls, Walk adj x ls y

/-- No walk comes back without taking a link twice. -/
def Acyclic (adj : L → V → V → Prop) : Prop := ∀ x ls, Walk adj x ls x → ls.Nodup → ls = []

namespace Walk

theorem append {x y z : V} {ls ms : List L} (h : Walk adj x ls y) (h' : Walk adj y ms z) :
    Walk adj x (ls ++ ms) z := by
  induction h with
  | nil => exact h'
  | cons h _ ih => exact cons h (ih h')

theorem reverse (hsymm : ∀ l x y, adj l x y → adj l y x) {x y : V} {ls : List L}
    (h : Walk adj x ls y) : Walk adj y ls.reverse x := by
  induction h with
  | nil x => exact nil x
  | cons h _ ih =>
    rw [List.reverse_cons]
    exact ih.append (cons (hsymm _ _ _ h) (nil _))

end Walk

/-- Every link leads from a vertex other than `root`, as its link `up`, to the vertex `par` of smaller
    rank. -/
structure Forest (adj : L → V → V → Prop) (root : V) (up : V → L) (par : V → V) (rank : V → Nat) :
    Prop where
  rank_lt : ∀ x, x ≠ root → rank (par x) < rank x
  only : ∀ l x y, adj l x y →
    (x ≠ root ∧ l = up x ∧ y = par x) ∨ (y ≠ root ∧ l = up y ∧ x = par y)

namespace Forest

variable {root : V} {up : V → L} {par : V → V} {rank : V → Nat}

/-- `x` lies below `a`, or is `a`. -/
def Below (root : V) (par : V → V) (a x : V) : Prop :=
  Relation.ReflTransGen (fun x y => x ≠ root ∧ y = par x) x a

theorem Below.rank_le (h : Forest adj root up par rank) {a x : V} (hx : Below root par a x) :
    rank a ≤ rank x := by
  induction hx using Relation.ReflTransGen.head_induction_on with
  | refl => exact Nat.le_refl _
  | head hstep _ ih =>
    obtain ⟨hne, rfl⟩ := hstep
    exact Nat.le_trans ih (Nat.le_of_lt (h.rank_lt _ hne))

theorem below_iff_par {a x : V} (hx : x ≠ root) (hxa : x ≠ a) :
    Below root par a x ↔ Below root par a (par x) := by
  constructor
  · intro hbelow
    rcases Relation.ReflTransGen.cases_head hbelow with heq | ⟨y, ⟨-, rfl⟩, hrest⟩
    · exact absurd heq hxa
    · exact hrest
  · exact fun hrest => .head ⟨hx, rfl⟩ hrest

/-- Links other than the one from `a` to its parent do not lead into or out of what is below `a`. -/
theorem below_iff_of_adj (h : Forest adj root up par rank) {a x y : V} {l : L} (hl : adj l x y)
    (hne : l ≠ up a) : Below root par a x ↔ Below root par a y := by
  rcases h.only l x y hl with ⟨hx, rfl, rfl⟩ | ⟨hy, rfl, rfl⟩
  · exact below_iff_par hx fun hxa => hne (congrArg up hxa)
  · exact (below_iff_par hy fun hya => hne (congrArg up hya)).symm

theorem below_iff_of_walk (h : Forest adj root up par rank) {a x y : V} {ls : List L}
    (hw : Walk adj x ls y) (hnew : up a ∉ ls) : Below root par a x ↔ Below root par a y := by
  induction hw with
  | nil => rfl
  | cons hl _ ih =>
    exact (h.below_iff_of_adj hl fun he => hnew (he ▸ List.mem_cons_self)).trans
      (ih fun hmem => hnew (List.mem_cons_of_mem _ hmem))

theorem not_below_par (h : Forest adj root up par rank) {a : V} (ha : a ≠ root) :
    ¬ Below root par a (par a) := fun hbelow =>
  Nat.not_le_of_gt (h.rank_lt a ha) (Below.rank_le h hbelow)

/-- A closed walk does not come back to the other side of its first link. -/
theorem acyclic (h : Forest adj root up par rank) : Acyclic adj := by
  intro x ls hw hnodup
  cases hw with
  | nil => rfl
  | @cons l _ y _ ls hl hrest =>
    have hnew := (List.nodup_cons.1 hnodup).1
    exfalso
    rcases h.only l x y hl with ⟨hx, rfl, rfl⟩ | ⟨hy, rfl, rfl⟩
    · exact h.not_below_par hx ((h.below_iff_of_walk hrest hnew).2 .refl)
    · exact h.not_below_par hy ((h.below_iff_of_walk hrest hnew).1 .refl)

/-- The graph is connected if all the links to parents are there. -/
theorem connected (h : Forest adj root up par rank) (hsymm : ∀ l x y, adj l x y → adj l y x)
    (hlink : ∀ x, x ≠ root → adj (up x) x (par x)) : Connected adj := by
  have hroot : ∀ n x, rank x = n → ∃ ls, Walk adj x ls root := by
    intro n
    induction n using Nat.strongRecOn with
    | _ n ih =>
      rintro x rfl
      by_cases hx : x = root
      · exact ⟨[], hx ▸ .nil x⟩
      · obtain ⟨ls, hls⟩ := ih _ (h.rank_lt x hx) _ rfl
        exact ⟨up x :: ls, .cons (hlink x hx) hls⟩
  intro x y
  obtain ⟨ls, hx⟩ := hroot _ x rfl
  obtain ⟨ms, hy⟩ := hroot _ y rfl
  exact ⟨ls ++ ms.reverse, hx.append (hy.reverse hsymm)⟩

end Forest

end LinkGraph
