import Mathlib.Algebra.Order.Ring.Int
import Nctuns.Lib.NextHops
import Nctuns.Lib.Run

/-!
# DSDV routing

`dsdvd.cc`: each node keeps a table with an entry for every destination it knows, broadcasts all of it
at intervals and the changed entries at once. A node is its IP address. Clocks are inputs, as is the
memory that an immediate advertisement has behind the entries written to it.
-/

namespace Dsdv

variable {N : Type*}

/-- The metric of a destination that cannot be reached. -/
def BIG : Int := 250

/-- A route. -/
structure RtUnit (N : Type*) where
  dst : N
  nextHop : N
  metric : Int
  num : Int
  sign_host : N
  install_time : Nat
  need_adv_now : Bool
  expire_flag : Bool
  already_bcast : Bool
  deriving DecidableEq, Repr

/-- A node with its `rt_table`. -/
structure DSDVd (N : Type*) where
  mip : N
  rows : List (RtUnit N)
  now_counter : Nat
  seq : Int
  expire_time_out_ : Nat
  deriving DecidableEq, Repr

/-- An advertisement of a node. -/
structure Advert (N : Type*) where
  from_ : N
  units : List (RtUnit N)
  deriving DecidableEq, Repr

/-- More entries are written to an advertisement than its buffer has room for. -/
inductive Fault where
  | overrun
  deriving DecidableEq, Repr

namespace DSDVd

/-- The entry of a node for itself. -/
def ownUnit (mip : N) (seq : Int) (now : Nat) : RtUnit N where
  dst := mip
  nextHop := mip
  metric := 0
  num := seq
  sign_host := mip
  install_time := now
  need_adv_now := false
  expire_flag := false
  already_bcast := false

/-- A node that knows itself. -/
def init (mip : N) (expire_time_out_ now : Nat) : DSDVd N where
  mip := mip
  rows := [ownUnit mip 0 now]
  now_counter := 0
  seq := 2
  expire_time_out_ := expire_time_out_

section Tables

variable [DecidableEq N]

/-- The place of a destination in the table. -/
def getIndex (rows : List (RtUnit N)) (dst : N) : Option Nat := rows.findIdx? fun r => r.dst = dst

/-- `addUnit`. -/
def addUnit (rows : List (RtUnit N)) (unit : RtUnit N) : List (RtUnit N) :=
  match getIndex rows unit.dst with
  | some i => rows.set i unit
  | none => rows ++ [unit]

/-! ## Receiving an advertisement -/

/-- The entry for a destination that is new in the table. -/
def newUnit (now : Nat) (from_ : N) (a : RtUnit N) : RtUnit N where
  dst := a.dst
  nextHop := from_
  metric := a.metric + 1
  num := a.num
  sign_host := a.sign_host
  install_time := now
  need_adv_now := false
  expire_flag := false
  already_bcast := false

/-- The entry `b` once it has taken a fresher or shorter route. -/
def takeUnit (now : Nat) (from_ : N) (a b : RtUnit N) : RtUnit N :=
  { b with
    dst := a.dst
    need_adv_now := b.nextHop ≠ from_
    nextHop := from_
    metric := a.metric + 1
    num := a.num
    sign_host := a.sign_host
    install_time := now
    expire_flag := false }

/-- The entry `b` once its next hop has reported a broken path. -/
def breakUnit (from_ : N) (a b : RtUnit N) : RtUnit N :=
  { b with
    dst := a.dst
    nextHop := from_
    metric := BIG
    num := a.num
    sign_host := a.sign_host
    install_time := a.install_time
    need_adv_now := true
    expire_flag := true
    already_bcast := true }

/-- A unit of an advertisement. -/
def update (now : Nat) (from_ : N) (s : DSDVd N) (a : RtUnit N) : DSDVd N :=
  if a.dst = s.mip then s
  else if a.dst = a.sign_host then
    match getIndex s.rows a.dst with
    | none => { s with rows := addUnit s.rows (newUnit now from_ a) }
    | some i =>
      match s.rows[i]? with
      | none => s
      | some b =>
        if a.num > b.num ∨ (a.num = b.num ∧ a.metric + 1 < b.metric) then
          { s with
            rows := s.rows.set i (takeUnit now from_ a b)
            now_counter := if b.nextHop ≠ from_ then s.now_counter + 1 else s.now_counter }
        else s
  else
    match getIndex s.rows a.dst with
    | none => s
    | some i =>
      match s.rows[i]? with
      | none => s
      | some b =>
        if i > 0 ∧ b.nextHop = from_ ∧ b.already_bcast = false then
          { s with rows := s.rows.set i (breakUnit from_ a b), now_counter := s.now_counter + 1 }
        else s

/-! ## Stale entries -/

/-- `now - install_time`, in 64 bits. -/
def age (now : Nat) (r : RtUnit N) : Nat := (now + 2 ^ 64 - r.install_time % 2 ^ 64) % 2 ^ 64

/-- The loop over the table labels a stale entry, and reports a neighbour dead once. -/
def labelUnit (s : DSDVd N) (now : Nat) (r : RtUnit N) : RtUnit N :=
  if age now r > s.expire_time_out_ then
    if r.dst = r.nextHop ∧ r.already_bcast = false then
      { r with
        metric := BIG
        num := r.num + 1
        sign_host := s.mip
        need_adv_now := true
        already_bcast := true
        install_time := now }
    else { r with expire_flag := true }
  else r

/-- The entry is a neighbour that is reported dead. -/
def Dies (s : DSDVd N) (now : Nat) (r : RtUnit N) : Prop :=
  age now r > s.expire_time_out_ ∧ r.dst = r.nextHop ∧ r.already_bcast = false

/-- The entry is too old, so `_flag` is set. -/
def Expires (s : DSDVd N) (now : Nat) (r : RtUnit N) : Prop :=
  age now r > s.expire_time_out_ ∧ ¬ (r.dst = r.nextHop ∧ r.already_bcast = false)

instance (s : DSDVd N) (now : Nat) (r : RtUnit N) : Decidable (s.Dies now r) :=
  inferInstanceAs (Decidable (_ ∧ _))

instance (s : DSDVd N) (now : Nat) (r : RtUnit N) : Decidable (s.Expires now r) :=
  inferInstanceAs (Decidable (_ ∧ _))

/-- `sendAdvPktNow`: the first entry and the changed ones, in a buffer for `now_counter + 1` of them;
    what is not written keeps its `junk`. -/
def sendAdvPktNow (s : DSDVd N) (junk : List (RtUnit N)) : Except Fault (DSDVd N × Advert N) :=
  let units := s.rows.take 1 ++ s.rows.tail.filter fun r => r.need_adv_now
  if units.length > s.now_counter + 1 then .error .overrun
  else .ok
    ({ s with rows := s.rows.take 1 ++ s.rows.tail.map fun r => { r with need_adv_now := false } },
      ⟨s.mip, units ++ junk.take (s.now_counter + 1 - units.length)⟩)

/-- What `selfCheck` and the end of `recvAdvPkt` do: label the stale entries, report dead neighbours at
    once, and drop what has expired. -/
def selfCheck (s : DSDVd N) (now : Nat) (junk : List (RtUnit N)) :
    Except Fault (DSDVd N × List (Advert N)) :=
  let expired := s.rows.any fun r => s.Expires now r
  let s := { s with
    rows := s.rows.map (s.labelUnit now)
    now_counter := s.now_counter + s.rows.countP fun r => s.Dies now r }
  let rebuild (s : DSDVd N) : DSDVd N :=
    if expired then { s with rows := s.rows.filter fun r => !r.expire_flag } else s
  if s.now_counter > 0 then
    match s.sendAdvPktNow junk with
    | .error e => .error e
    | .ok (s, advert) => .ok (rebuild { s with now_counter := 0 }, [advert])
  else .ok (rebuild s, [])

/-- `recvAdvPkt`. -/
def recvAdvPkt (s : DSDVd N) (now : Nat) (advert : Advert N) (junk : List (RtUnit N)) :
    Except Fault (DSDVd N × List (Advert N)) :=
  (advert.units.foldl (update now advert.from_) s).selfCheck now junk

/-- `sendAdvPktRegular` writes its own entry over the first one, but for `already_bcast`. -/
def renew (s : DSDVd N) (now : Nat) : DSDVd N :=
  { s with
    rows := s.rows.modifyHead fun r => { ownUnit s.mip s.seq now with already_bcast := r.already_bcast }
    seq := s.seq + 2 }

/-- `sendAdvPktRegular`: the whole table goes out behind what `selfCheck` sends. -/
def sendAdvPktRegular (s : DSDVd N) (now : Nat) (junk : List (RtUnit N)) :
    Except Fault (DSDVd N × List (Advert N)) :=
  if s.rows = [] then .error .overrun
  else
    ((s.renew now).selfCheck now junk).map fun (t, adverts) =>
      (t, adverts ++ [⟨s.mip, (s.renew now).rows⟩])

/-- The route to another node, with its sequence number and metric, while the metric is below `BIG`. -/
def routeTo (s : DSDVd N) (dst : N) : Option (N × (Int × Int)) :=
  if dst = s.mip then none
  else (s.rows.find? fun r => r.dst = dst).bind fun r =>
    if r.metric < BIG then some (r.nextHop, (r.num, r.metric)) else none

/-! ## Forwarding -/

/-- `getUnit(-1)` reads in front of the table. -/
inductive IndexFault where
  | negative
  deriving DecidableEq, Repr

/-- `routing`: what it returns, and the gateway that the packet has afterwards. -/
def routing (s : DSDVd N) (dst gateway : N) : Except IndexFault (Int × N) :=
  match getIndex s.rows dst with
  | some 0 => .ok (-1, gateway)
  | some index =>
    match s.rows[index]? with
    | none => .ok (-1, gateway)
    | some tmp => if tmp.metric = BIG then .ok (-1, gateway) else .ok (1, tmp.nextHop)
  | none => .error .negative

/-- A packet is sent on exactly if there is a valid route. -/
def Forwards (s : DSDVd N) (dst : N) : Prop :=
  ∀ gateway, s.routing dst gateway = .ok (match s.routeTo dst with
    | some (nextHop, _) => (1, nextHop)
    | none => (-1, gateway))

/-- There is an entry, behind the first one with a metric of at most `BIG` or as the first one without a
    valid route. -/
def Listed (s : DSDVd N) (dst : N) : Prop :=
  ∃ index r, getIndex s.rows dst = some index ∧ s.rows[index]? = some r ∧
    if index = 0 then BIG ≤ r.metric else r.metric ≤ BIG

end Tables

end DSDVd

/-! ## A network -/

/-- A fresher sequence number, or the same one with a smaller metric. -/
def Better (k k' : Int × Int) : Prop := k'.1 < k.1 ∨ (k.1 = k'.1 ∧ k.2 < k'.2)

instance (k k' : Int × Int) : Decidable (Better k k') := inferInstanceAs (Decidable (_ ∨ _))

/-- The nodes, the advertisements on the air, and the sequence numbers and metrics of the routes that
    each node has ever held. -/
structure Net (N : Type*) where
  node : N → DSDVd N
  air : List (Advert N)
  held : N → N → List (Int × Int)

/-- What happens. Any other node may hear an advertisement, at any later time, or never. -/
inductive NetAction (N : Type*) where
  | regular (n : N) (now : Nat) (junk : List (RtUnit N))
  | deliver (n : N) (i now : Nat) (junk : List (RtUnit N))

namespace Net

variable [DecidableEq N]

/-- Nodes that know themselves, and nothing sent. -/
def init (expire_time_out_ now : N → Nat) : Net N where
  node n := .init n (expire_time_out_ n) (now n)
  air := []
  held _ _ := []

/-- The keys of the routes of a node are held from now on. -/
def remember (s : DSDVd N) (held : N → List (Int × Int)) : N → List (Int × Int) :=
  fun dst => ((s.routeTo dst).map Prod.snd).toList ++ held dst

/-- What a node has held once it has gone through an advertisement. -/
def heldAfter (now : Nat) (from_ : N) : List (RtUnit N) → DSDVd N → (N → List (Int × Int)) →
    N → List (Int × Int)
  | [], _, held => held
  | a :: units, s, held =>
    heldAfter now from_ units (s.update now from_ a) (remember (s.update now from_ a) held)

/-- One action of the network. -/
def step (s : Net N) : NetAction N → Except Fault (Net N)
  | .regular n now junk =>
    match (s.node n).sendAdvPktRegular now junk with
    | .error e => .error e
    | .ok (node, adverts) =>
      .ok { s with node := Function.update s.node n node, air := s.air ++ adverts }
  | .deliver n i now junk =>
    match s.air[i]? with
    | none => .ok s
    | some advert =>
      if advert.from_ = n then .ok s
      else
        match (s.node n).recvAdvPkt now advert junk with
        | .error e => .error e
        | .ok (node, adverts) => .ok {
            node := Function.update s.node n node
            air := s.air ++ adverts
            held := Function.update s.held n
              (heldAfter now advert.from_ advert.units (s.node n) (s.held n)) }

/-- The next hops to a destination form no cycle. -/
def LoopFree (s : Net N) : Prop :=
  ∀ dst n, ¬ Relation.TransGen (NextHops.Hop fun n => (s.node n).routeTo dst) n n

/-- The unit is a valid route that `update` puts into the table: it is new, fresher, or shorter. -/
def Takes (s : DSDVd N) (a : RtUnit N) : Prop :=
  a.dst ≠ s.mip ∧ a.dst = a.sign_host ∧ a.metric + 1 < BIG ∧
    ∀ b ∈ s.rows.find? fun r => r.dst = a.dst,
      a.num > b.num ∨ (a.num = b.num ∧ a.metric + 1 < b.metric)

/-- Each route taken from an advertisement is better than all that the node has held before. -/
def Fresh (now : Nat) (from_ : N) : List (RtUnit N) → DSDVd N → (N → List (Int × Int)) → Prop
  | [], _, _ => True
  | a :: units, s, held =>
    (Takes s a → ∀ k ∈ held a.dst, Better (a.num, a.metric + 1) k) ∧
      Fresh now from_ units (s.update now from_ a) (remember (s.update now from_ a) held)

instance (s : DSDVd N) (a : RtUnit N) : Decidable (Takes s a) := inferInstanceAs (Decidable (_ ∧ _))

instance Fresh.decidable (now : Nat) (from_ : N) : (units : List (RtUnit N)) → (s : DSDVd N) →
    (held : N → List (Int × Int)) → Decidable (Fresh now from_ units s held)
  | [], _, _ => .isTrue trivial
  | a :: units, s, held =>
    have := decidable now from_ units (s.update now from_ a) (remember (s.update now from_ a) held)
    inferInstanceAs (Decidable (_ ∧ _))

/-- A node that gets an advertisement takes no stale route from it, and its entry for itself has not
    expired. -/
def Sane (s : Net N) : NetAction N → Prop
  | .regular .. => True
  | .deliver n i now _ => ∀ advert ∈ s.air[i]?, advert.from_ ≠ n →
      Fresh now advert.from_ advert.units (s.node n) (s.held n) ∧
        ∀ r ∈ (s.node n).rows.head?, DSDVd.age now r ≤ (s.node n).expire_time_out_

instance (s : Net N) : (a : NetAction N) → Decidable (s.Sane a)
  | .regular .. => .isTrue trivial
  | .deliver n i _ _ => inferInstanceAs (Decidable (∀ advert ∈ s.air[i]?, advert.from_ ≠ n → _ ∧ _))

end Net

end Dsdv
