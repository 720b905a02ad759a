import Nctuns.Dsr.SendBuffer

/-!
# The route cache of a DSR agent

`routecache.h`, and what it needs of `route.h`. The cache is an array whose slot 0 is not used; `size`
is the next slot that was never filled. An erased entry has the address `IP_invalid_addr`.
-/

namespace Dsr

/-- The room of the cache. -/
abbrev MAX_ROUTE_CACHE_ENTRY : Nat := 20

/-- A route: its nodes, and the one in turn. -/
structure Route where
  path : List UInt64
  current_index : UInt8
  length_le : path.length ≤ MAX_ROUTE_LEN.toNat
  deriving DecidableEq

namespace Route

/-- `Route::Route`. -/
def empty : Route := ⟨[], 0, by decide⟩

/-- `Route::size`. -/
def size (route : Route) : Nat := route.path.length * 8 + 2

/-- The first node is in turn. -/
def resetIterator (route : Route) : Route := { route with current_index := 0 }

/-- The first node of the route. -/
def firstHop (to_ : UInt64) (route : Route) : Bool := route.path.head? == some to_

/-- The loop of `RouteCache::erase` over the links of a route. -/
def usesLink (from_ to_ : UInt64) (route : Route) : Bool :=
  (route.path.zip route.path.tail).any fun x =>
    (x.1 == from_ && x.2 == to_) || (x.2 == from_ && x.1 == to_)

end Route

/-- A slot: a destination and the route to it. -/
structure RouteCacheEntry where
  ip_addr : UInt64
  size : Nat
  route : Route
  timestamp : UInt64
  deriving DecidableEq

/-- The cache: its slots, the next one and the size. -/
structure RouteCache where
  cache : Nat → RouteCacheEntry
  index : Nat
  size : Nat

/-- How a call fails. -/
inductive CacheHalt where
  /-- `route[route.getLength()-1]` of an empty route. -/
  | noLastNode
  deriving DecidableEq, Repr

/-- The indices of the loops over the cache. -/
abbrev slots : List Nat := List.range' 1 (MAX_ROUTE_CACHE_ENTRY - 1)

/-- The slot holds a route. -/
def RouteCacheEntry.live (e : RouteCacheEntry) : Bool := e.ip_addr != IP_invalid_addr.toUInt64

namespace RouteCache

/-- `RouteCache::RouteCache`. -/
def new : RouteCache := ⟨fun _ => ⟨IP_invalid_addr.toUInt64, 0, Route.empty, 0⟩, 0, 1⟩

/-- One slot is written. -/
def write (c : RouteCache) (i : Nat) (e : RouteCacheEntry) : RouteCache :=
  { c with cache := Function.update c.cache i e }

/-- `cache[i].ip_addr = dsr::IP_invalid_addr`. -/
def invalidate (c : RouteCache) (i : Nat) : RouteCache :=
  c.write i { c.cache i with ip_addr := IP_invalid_addr.toUInt64 }

/-- `RouteCache::find`. -/
def find (c : RouteCache) (node : UInt64) : Nat :=
  (slots.find? fun i => decide ((c.cache i).ip_addr = node)).getD 0

/-- `RouteCache::addRoute`. -/
def addRoute (c : RouteCache) (currentTime : UInt64) (route : Route) : Except CacheHalt RouteCache :=
  match route.path.getLast? with
  | none => .error .noLastNode
  | some dst =>
    let index := c.find dst
    if index ≠ 0 then
      if route.size ≤ (c.cache index).route.size then
        .ok (c.write index
          { c.cache index with route := route.resetIterator, timestamp := currentTime })
      else .ok c
    else if c.size < MAX_ROUTE_CACHE_ENTRY then
      .ok { c.write c.size ⟨dst, 1, route, currentTime⟩ with size := c.size + 1 }
    else .ok { c with index := (c.index + 1) % MAX_ROUTE_CACHE_ENTRY }

/-- `RouteCache::findRoute`. -/
def findRoute (c : RouteCache) (dst : UInt64) : Option Route :=
  let index := c.find dst
  if index ≠ 0 then some (c.cache index).route else none

/-- `RouteCache::erase` of a link. -/
def eraseLink (c : RouteCache) (from_ to_ : UInt64) : RouteCache :=
  slots.foldl (fun c i =>
    if (c.cache i).live && (c.cache i).route.usesLink from_ to_ then c.invalidate i else c) c

/-- `RouteCache::erase` of a first hop: the loop ends at the first entry that it finds. -/
def erase (c : RouteCache) (to_ : UInt64) : RouteCache :=
  match slots.find? fun i => (c.cache i).live && (c.cache i).route.firstHop to_ with
  | none => c
  | some i => c.invalidate i

end RouteCache

/-- The calls of the cache. -/
inductive CacheCall where
  | addRoute (currentTime : UInt64) (route : Route)
  | eraseLink (from_ to_ : UInt64)
  | erase (to_ : UInt64)

/-- The cache after a call. -/
def RouteCache.call (c : RouteCache) : CacheCall → Except CacheHalt RouteCache
  | .addRoute currentTime route => c.addRoute currentTime route
  | .eraseLink from_ to_ => .ok (c.eraseLink from_ to_)
  | .erase to_ => .ok (c.erase to_)

/-! ## Invalidation -/

/-- A cache as calls make it: entries from `size` on were never filled, and no two are for one node. -/
structure RouteCache.Wf (c : RouteCache) : Prop where
  size_pos : 1 ≤ c.size
  size_le : c.size ≤ MAX_ROUTE_CACHE_ENTRY
  unused : ∀ i, c.size ≤ i → (c.cache i).live = false
  uniq : ∀ i ∈ slots, ∀ j ∈ slots, (c.cache i).live = true →
    (c.cache i).ip_addr = (c.cache j).ip_addr → i = j

/-- An entry of the cache that an erasure has to remove. -/
def RouteCache.Hit (c : RouteCache) (p : Route → Bool) (i : Nat) : Prop :=
  i ∈ slots ∧ (c.cache i).live = true ∧ p (c.cache i).route = true

/-- The slot holds a route to a node again after some calls. -/
def RouteCache.Reusable (c : RouteCache) (i : Nat) : Prop :=
  ∃ calls c', Run.exec RouteCache.call c calls = .ok c' ∧ (c'.cache i).live = true

/-- No node has a route that had to be erased. -/
def Gone (c' : RouteCache) (p : Route → Bool) : Prop :=
  ∀ dst r, dst ≠ IP_invalid_addr.toUInt64 → c'.findRoute dst = some r → p r = false

/-- Every node has the route that it had, unless that had to be erased. -/
def OthersKept (c c' : RouteCache) (p : Route → Bool) : Prop :=
  ∀ dst r, dst ≠ IP_invalid_addr.toUInt64 → c.findRoute dst = some r → p r = false →
    c'.findRoute dst = some r

/-- The slot of an erased entry can be used again. -/
def SlotsReusable (c c' : RouteCache) : Prop :=
  ∀ i ∈ slots, (c.cache i).live = true → (c'.cache i).live = false → c'.Reusable i

/-- What an erasure of the routes `p` should do. -/
def Invalidates (c c' : RouteCache) (p : Route → Bool) : Prop :=
  Gone c' p ∧ OthersKept c c' p ∧ SlotsReusable c c'

end Dsr
