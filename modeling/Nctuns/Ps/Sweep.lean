import Nctuns.Ps.Drr

/-!
# The memory of a sweep

`drr::Delete_que` (`drr.cc`) frees the queues that it takes out of the list while it walks along it.
`sweepLog` is the loop with what it does to the nodes: a node is used where one of its members is read
or written.
-/

namespace Ps

/-- A node of the list is read or written, or freed. -/
inductive Access where
  | use (k : Nat)
  | free (k : Nat)
  deriving DecidableEq, Repr

namespace Drr

/-- The accesses of `unlink` and of the `free` behind it. -/
def unlinkLog (d : Drr) (DelFindPrev : Option Nat) (DelFind : Nat) : List Access :=
  if d.drrTableAll.First = some DelFind then [.use DelFind, .free DelFind]
  else DelFindPrev.toList.map .use ++ [.use DelFind, .free DelFind]

/-- The accesses to the nodes in one round; the last one is that of `DelFind = DelFind->Next`. -/
def roundLog (d : Drr) (DelFindPrev : Option Nat) (DelFind : Nat) : List Access :=
  .use DelFind ::
    (if (tick (d.tbl DelFind)).Timer ≥ 5 then d.unlinkLog DelFindPrev DelFind else []) ++ [.use DelFind]

/-- What one round of the loop does to the queues. -/
def round (d : Drr) (DelFindPrev : Option Nat) (DelFind : Nat) : Except Halt Drr :=
  let d := d.setTbl DelFind (tick (d.tbl DelFind))
  if (d.tbl DelFind).Timer ≥ 5 then d.unlink DelFindPrev DelFind else .ok d

/-- The loop of `drr::Delete_que` with its accesses to the nodes. -/
def sweepLog : Nat → Option Nat → Option Nat → Drr → Except Halt (Drr × List Access)
  | _, _, none, d => .ok (d, [])
  | 0, _, some _, _ => .error .diverges
  | n + 1, DelFindPrev, some DelFind, d => do
    let d₁ ← d.round DelFindPrev DelFind
    let (d₂, rest) ← sweepLog n (some DelFind) (d₁.Next DelFind) d₁
    .ok (d₂, d.roundLog DelFindPrev DelFind ++ rest)

/-- `First`, `Tail` and `Counter` describe the list of the queues `l`. -/
structure Listed (d : Drr) (l : List Nat) : Prop where
  list : PtrChain.IsList d.Next d.drrTableAll.First d.drrTableAll.Tail l
  count : d.drrTableAll.Counter = l.length
  allocated : ∀ k ∈ l, k < d.allocated

/-- A sweep over `l` keeps the queues that do not expire, in their order, and nothing that it has freed
    is used by a later step. -/
def Swept (d : Drr) (l : List Nat) : Prop :=
  ∃ d' log, sweepLog d.allocated none d.drrTableAll.First d = .ok (d', log) ∧
    d'.Listed (l.filter fun k => !d.expires k) ∧
    ∀ k, ¬ [Access.free k, Access.use k].Sublist log

end Drr

end Ps
