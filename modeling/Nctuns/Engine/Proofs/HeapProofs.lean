import Nctuns.Engine.Heap

/-!
# Proofs: the event heap

The two sift loops are checked once against any order that goes by timestamp and, between equal
timestamps, by priority. `siftUp` keeps every such order. `siftDown` keeps one when the child it
compares with is the right one at every position of its path, which the timestamp order always
grants and the priority order does not.
-/

namespace Engine

open TreeHeap

variable {r : Event → Event → Prop} {a : Nat → Event} {n i fuel : Nat} {e : Event}

/-- `x` is not due later than `y`. -/
def NotLater (x y : Event) : Prop := x.timeStamp_ ≤ y.timeStamp_

/-- `x` does not go after `y`. -/
def NotAfter (x y : Event) : Prop := ¬ Before y x

theorem notAfter_iff {x y : Event} :
    NotAfter x y ↔ x.timeStamp_ < y.timeStamp_ ∨
      (x.timeStamp_ = y.timeStamp_ ∧ y.priority_ ≤ x.priority_) := by
  unfold NotAfter Before; omega

/-- An order on events that goes by timestamp and, between equal timestamps, by priority. -/
structure Respects (r : Event → Event → Prop) : Prop where
  trans : ∀ x y z, r x y → r y z → r x z
  ofNotAfter : ∀ x y, NotAfter x y → r x y

theorem Respects.refl (hr : Respects r) (x : Event) : r x x :=
  hr.ofNotAfter x x (by rw [notAfter_iff]; omega)

theorem respects_notLater : Respects NotLater where
  trans _ _ _ := Nat.le_trans
  ofNotAfter x y h := by rw [notAfter_iff] at h; unfold NotLater; omega

theorem respects_notAfter : Respects NotAfter where
  trans x y z h1 h2 := by rw [notAfter_iff] at *; omega
  ofNotAfter _ _ h := h

/-- The heap is ordered by `r`. -/
def HeapObject.OrderedBy (r : Event → Event → Prop) (h : HeapObject) : Prop :=
  Ordered r h.eventHeap_ h.numEvent_

/-! ## Insertion -/

/-- The loop of `insertEvent` ends where the event can be placed. -/
theorem siftUp_spec (hr : Respects r) (h1 : 1 ≤ i) (hin : i ≤ n) (hf : i ≤ fuel)
    (h : UpHole r a n i e) :
    Ordered r (Function.update (siftUp e fuel a i).1 (siftUp e fuel a i).2 e) n ∧
      contents (Function.update (siftUp e fuel a i).1 (siftUp e fuel a i).2 e) n =
        contents (Function.update a i e) n := by
  induction fuel generalizing a i with
  | zero => omega
  | succ fuel ih =>
    have hmove : 2 ≤ i → NotAfter e (a (i / 2)) →
        Ordered r (Function.update (siftUp e fuel (Function.update a i (a (i / 2))) (i / 2)).1
            (siftUp e fuel (Function.update a i (a (i / 2))) (i / 2)).2 e) n ∧
          contents (Function.update (siftUp e fuel (Function.update a i (a (i / 2))) (i / 2)).1
            (siftUp e fuel (Function.update a i (a (i / 2))) (i / 2)).2 e) n =
              contents (Function.update a i e) n := by
      intro h2 hb
      obtain ⟨ho, hc⟩ := ih (by omega) (by omega) (by omega)
        (h.move hr.trans h2 hin (hr.ofNotAfter _ _ hb))
      exact ⟨ho, hc.trans (contents_move h1 hin (by omega) (by omega) (by omega))⟩
    have hstay : (2 ≤ i → NotAfter (a (i / 2)) e) → Ordered r (Function.update a i e) n :=
      fun hs => h.finish fun h2 => hr.ofNotAfter _ _ (hs h2)
    rw [siftUp]
    split_ifs with hroot hgt htie htie'
    · exact ⟨hstay fun h2 => by omega, rfl⟩
    · exact ⟨hstay fun _ => by rw [notAfter_iff]; omega, rfl⟩
    · exact ⟨hstay fun _ => by rw [notAfter_iff]; omega, rfl⟩
    · exact hmove (by omega) (by rw [notAfter_iff]; omega)
    · exact hmove (by omega) (by rw [notAfter_iff]; omega)

/-- What `insertEvent` does: it rejects the event, or adds it to an ordered heap. -/
theorem insertEvent_cases {h h' : HeapObject} {now maxsimtime : Nat} {ep : Option Event} {ret : Int}
    (hins : h.insertEvent now maxsimtime ep = .ok (h', ret)) :
    (h' = h ∧ ret < 1 ∧ ∀ e, ep = some e → maxsimtime > 0 ∧ e.timeStamp_ > maxsimtime) ∨
    ∃ e, ep = some e ∧ ¬ (maxsimtime > 0 ∧ e.timeStamp_ > maxsimtime) ∧ now ≤ e.timeStamp_ ∧ ret = 1 ∧
      h'.events = e ::ₘ h.events ∧ ∀ r, Respects r → h.OrderedBy r → h'.OrderedBy r := by
  cases ep with
  | none =>
    obtain ⟨rfl, rfl⟩ : h = h' ∧ -1 = ret := by simpa [HeapObject.insertEvent] using hins
    exact .inl ⟨rfl, by omega, fun _ he => by cases he⟩
  | some e =>
    simp only [HeapObject.insertEvent] at hins
    split_ifs at hins with hfull hpast hmax
    · obtain ⟨rfl, rfl⟩ : h = h' ∧ 0 = ret := by simpa using hins
      refine .inl ⟨rfl, by omega, ?_⟩
      rintro _ ⟨⟩
      exact hmax
    · obtain ⟨rfl, rfl⟩ := Prod.mk.inj (Except.ok.inj hins)
      have hspec {r} (hr : Respects r) (ho : h.OrderedBy r) :=
        siftUp_spec (e := e) hr (Nat.le_add_left 1 h.numEvent_) le_rfl le_rfl ho.upHole
      refine .inr ⟨e, rfl, hmax, by omega, rfl, ?_, fun r hr ho => (hspec hr ho).1⟩
      -- an order that relates everything holds of any heap
      have hall : Respects fun _ _ => True := ⟨fun _ _ _ _ _ => trivial, fun _ _ _ => trivial⟩
      rw [HeapObject.events, (hspec hall fun _ _ _ => trivial).2, contents_succ,
        Function.update_self, contents_update_of_lt (by omega), HeapObject.events]

/-! ## Removal -/

/-- No position above `i` matters to the path from `i`. -/
theorem smallPath_update {j : Nat} {v : Event} (h : i < j) :
    smallPath (Function.update a i v) n fuel j = smallPath a n fuel j := by
  induction fuel generalizing j with
  | zero => rfl
  | succ fuel ih =>
    rw [smallPath, smallPath, update_of_ne (show 2 * j ≠ i by omega),
      update_of_ne (show 2 * j + 1 ≠ i by omega), ih (by omega), ih (by omega)]

/-- The child picked is the left or the right one, with the smallest timestamp of both. -/
theorem pickChild_spec (h : 2 * i ≤ n) :
    pickChild a n (2 * i) ≤ n ∧ pickChild a n (2 * i) / 2 = i ∧
      ∀ c, c ≤ n → c / 2 = i → NotLater (a (pickChild a n (2 * i))) (a c) := by
  have hkids : ∀ c, c / 2 = i → c = 2 * i ∨ c = 2 * i + 1 := by omega
  unfold pickChild NotLater
  split_ifs with hlt hge htie
  · exact ⟨by omega, by omega, fun c _ hc => by rcases hkids c hc with rfl | rfl <;> omega⟩
  · omega
  · exact ⟨by omega, by omega, fun c _ hc => by rcases hkids c hc with rfl | rfl <;> omega⟩
  · refine ⟨by omega, by omega, fun c hc hci => ?_⟩
    obtain rfl : c = 2 * i := by rcases hkids c hci with rfl | rfl <;> omega
    exact le_rfl

/-- The path goes on at the picked child. -/
theorem smallPath_succ (h : 2 * i ≤ n) :
    smallPath a n (fuel + 1) i = i :: smallPath a n fuel (pickChild a n (2 * i)) := by
  rw [smallPath, if_neg (by omega)]
  unfold pickChild
  split_ifs <;> first | rfl | omega

/-- At position `i` the comparison with the picked child is right for both children. -/
structure Steers (r : Event → Event → Prop) (a : Nat → Event) (n : Nat) (e : Event) (i : Nat) :
    Prop where
  stop : Before e (a (pickChild a n (2 * i))) → ∀ c, c ≤ n → c / 2 = i → r e (a c)
  move : ¬ Before e (a (pickChild a n (2 * i))) →
    ∀ c, c ≤ n → c / 2 = i → r (a (pickChild a n (2 * i))) (a c)

theorem le_of_mem_smallPath {k : Nat} (h : k ∈ smallPath a n fuel i) (h1 : 1 ≤ i) : i ≤ k := by
  induction fuel generalizing i with
  | zero => simp [smallPath] at h
  | succ fuel ih =>
    rw [smallPath] at h
    split_ifs at h
    · simp at h
    · rcases List.mem_cons.1 h with rfl | h
      · exact le_rfl
      · have := ih h (by omega); omega
    · rcases List.mem_cons.1 h with rfl | h
      · exact le_rfl
      · have := ih h (by omega); omega

theorem pickChild_update {j : Nat} {v : Event} (h : i < j) :
    pickChild (Function.update a i v) n j = pickChild a n j := by
  unfold pickChild
  rw [update_of_ne (show j ≠ i by omega), update_of_ne (show j + 1 ≠ i by omega)]

/-- Writing a position above `i` changes nothing at `i`. -/
theorem Steers.update {k : Nat} {v : Event} (h : Steers r a n e i) (hki : k < i) (hi : 2 * i ≤ n) :
    Steers r (Function.update a k v) n e i := by
  obtain ⟨-, hj, -⟩ := pickChild_spec (a := a) hi
  have hne : ∀ c, c / 2 = i → Function.update a k v c = a c := fun c _ => update_of_ne (by omega)
  constructor
  · rw [pickChild_update (by omega), hne _ hj]
    intro hb c hc hci
    rw [hne c hci]; exact h.stop hb c hc hci
  · rw [pickChild_update (by omega), hne _ hj]
    intro hb c hc hci
    rw [hne c hci]; exact h.move hb c hc hci

theorem two_mul_le_of_mem_smallPath {k : Nat} (h : k ∈ smallPath a n fuel i) : 2 * k ≤ n := by
  induction fuel generalizing i with
  | zero => simp [smallPath] at h
  | succ fuel ih =>
    rw [smallPath] at h
    split_ifs at h
    · simp at h
    · rcases List.mem_cons.1 h with rfl | h
      · omega
      · exact ih h
    · rcases List.mem_cons.1 h with rfl | h
      · omega
      · exact ih h

/-- The loop of `dequeueEvent` ends where the last event can be placed. -/
theorem siftDown_spec (fuel : Nat) (hr : Respects r) (h1 : 1 ≤ i) (hf : n < i + fuel) (h : DownHole r a n i e)
    (hs : ∀ k ∈ smallPath a n fuel i, Steers r a n e k) :
    Ordered r (Function.update (siftDown e n fuel a i).1 (siftDown e n fuel a i).2 e) n ∧
      contents (Function.update (siftDown e n fuel a i).1 (siftDown e n fuel a i).2 e) n =
        contents (Function.update a i e) n := by
  induction fuel generalizing a i with
  | zero => exact ⟨h.finish fun k _ hk hp => by omega, rfl⟩
  | succ fuel ih =>
    by_cases hleaf : n < 2 * i
    · rw [siftDown, if_neg (by omega)]
      exact ⟨h.finish fun k _ hk hp => by omega, rfl⟩
    · obtain ⟨hjn, hji, -⟩ := pickChild_spec (a := a) (show 2 * i ≤ n by omega)
      rw [smallPath_succ (by omega)] at hs
      obtain ⟨hstop, hmove⟩ := hs i (List.mem_cons_self ..)
      rw [siftDown, if_pos (by omega)]
      generalize pickChild a n (2 * i) = j at *
      have hstay : Before e (a j) → Ordered r (Function.update a i e) n :=
        fun hb => h.finish fun k _ hk hp => hstop hb k hk hp
      dsimp only
      split_ifs with hlt htie
      · exact ⟨hstay (.inl hlt), rfl⟩
      · exact ⟨hstay (.inr htie), rfl⟩
      · have hb : ¬ Before e (a j) := by unfold Before; omega
        have hs' : ∀ k ∈ smallPath (Function.update a i (a j)) n fuel j,
            Steers r (Function.update a i (a j)) n e k := by
          intro k hk
          rw [smallPath_update (by omega)] at hk
          have hjk := le_of_mem_smallPath hk (by omega)
          exact (hs k (List.mem_cons_of_mem _ hk)).update (by omega) (two_mul_le_of_mem_smallPath hk)
        obtain ⟨ho, hc⟩ := ih (by omega) (by omega)
          (h.move h1 hji hjn (hmove hb) (hr.ofNotAfter _ _ hb)) hs'
        exact ⟨ho, hc.trans (contents_move h1 (by omega) (by omega) hjn (by omega))⟩

/-- What `dequeueEvent` does on a heap with events: the root leaves, and an order that steers the
    loop is kept. -/
theorem dequeueEvent_cases {h : HeapObject} (hn : h.numEvent_ ≠ 0) :
    h.dequeueEvent.1 = some (h.eventHeap_ 1) ∧
      h.events = h.eventHeap_ 1 ::ₘ h.dequeueEvent.2.events ∧
      ∀ r, Respects r → h.OrderedBy r →
        (∀ k ∈ smallPath h.eventHeap_ (h.numEvent_ - 1) (h.numEvent_ - 1) 1,
          Steers r h.eventHeap_ (h.numEvent_ - 1) (h.eventHeap_ h.numEvent_) k) →
        h.dequeueEvent.2.OrderedBy r := by
  obtain ⟨n, hn⟩ := Nat.exists_eq_succ_of_ne_zero hn
  have hspec {r} (hr : Respects r) (ho : Ordered r h.eventHeap_ (n + 1)) :=
    siftDown_spec (e := h.eventHeap_ (n + 1)) n hr le_rfl (by omega) ho.shrink.downHole
  simp only [HeapObject.dequeueEvent, HeapObject.events, HeapObject.OrderedBy, hn, Nat.succ_ne_zero,
    if_false, Nat.succ_eq_add_one, Nat.add_sub_cancel, true_and]
  refine ⟨?_, fun r hr ho hs => (hspec hr ho hs).1⟩
  have hall : Respects fun _ _ => True := ⟨fun _ _ _ _ _ => trivial, fun _ _ _ => trivial⟩
  rw [(hspec hall (fun _ _ _ => trivial) fun k _ =>
    ⟨fun _ _ _ _ => trivial, fun _ _ _ _ => trivial⟩).2]
  cases n with
  | zero => rw [contents_succ, contents_zero, contents_zero]
  | succ n => rw [contents_succ, cons_contents_update (by omega) (by omega)]

/-! ## The two orders -/

/-- Timestamps always steer the loop. -/
theorem steers_notLater (h : 2 * i ≤ n) : Steers NotLater a n e i where
  stop hb c hc hi := by
    have := (pickChild_spec (a := a) h).2.2 c hc hi
    unfold NotLater Before at *; omega
  move _ := (pickChild_spec h).2.2

/-- Priorities steer the loop where no equal-timestamp sibling with a larger priority is passed
    over. -/
theorem steers_notAfter (h : 2 * i ≤ n) (hu : Untied a n e i) : Steers NotAfter a n e i := by
  -- the child not picked is no earlier, and on a tie it is the left one
  have hkid : ∀ c, c ≤ n → c / 2 = i → a c = a (pickChild a n (2 * i)) ∨
      (a (pickChild a n (2 * i))).timeStamp_ < (a c).timeStamp_ ∨
        (2 * i + 1 ≤ n ∧ c = 2 * i ∧ pickChild a n (2 * i) = 2 * i + 1) := by
    intro c hc hci
    have hkids : c = 2 * i ∨ c = 2 * i + 1 := by omega
    unfold pickChild
    split_ifs with hlt hge htie
    · rcases hkids with rfl | rfl
      · exact .inr (.inr ⟨by omega, rfl, rfl⟩)
      · exact .inl rfl
    · omega
    · rcases hkids with rfl | rfl
      · exact .inl rfl
      · exact .inr (.inl (by omega))
    · obtain rfl : c = 2 * i := by omega
      exact .inl rfl
  have hle := (pickChild_spec (a := a) h).2.2
  constructor
  · intro hb c hc hci
    have hcle := hle c hc hci
    rcases hkid c hc hci with heq | hlt | ⟨hin, rfl, hj⟩
    · rw [notAfter_iff, heq]; unfold Before at hb; omega
    · rw [notAfter_iff]; unfold Before at hb; omega
    · rw [hj] at hb hcle
      rw [notAfter_iff]
      unfold Untied at hu; unfold Before at hu hb; unfold NotLater at hcle
      omega
  · intro hb c hc hci
    have hcle := hle c hc hci
    rcases hkid c hc hci with heq | hlt | ⟨hin, rfl, hj⟩
    · rw [heq]; exact respects_notAfter.refl _
    · exact notAfter_iff.2 (.inl hlt)
    · rw [hj] at hb hcle ⊢
      rw [notAfter_iff]
      unfold Untied at hu; unfold Before at hu hb; unfold NotLater at hcle
      omega

theorem insertEvent_orderedBy {h h' : HeapObject} {now maxsimtime : Nat} {ep : Option Event}
    {ret : Int} (hr : Respects r) (ho : h.OrderedBy r)
    (hins : h.insertEvent now maxsimtime ep = .ok (h', ret)) : h'.OrderedBy r := by
  rcases insertEvent_cases hins with ⟨rfl, -⟩ | ⟨_, -, -, -, -, -, hkeep⟩
  · exact ho
  · exact hkeep r hr ho

theorem dequeueEvent_orderedBy_notLater {h : HeapObject} (ho : h.OrderedBy NotLater) :
    h.dequeueEvent.2.OrderedBy NotLater := by
  by_cases hn : h.numEvent_ = 0
  · simpa [HeapObject.dequeueEvent, hn] using ho
  · exact (dequeueEvent_cases hn).2.2 _ respects_notLater ho fun k hk =>
      steers_notLater (two_mul_le_of_mem_smallPath hk)

theorem dequeueEvent_orderedBy_notAfter {h : HeapObject} (ho : h.OrderedBy NotAfter)
    (hsafe : TieSafe h .dequeueEvent) : h.dequeueEvent.2.OrderedBy NotAfter := by
  by_cases hn : h.numEvent_ = 0
  · simpa [HeapObject.dequeueEvent, hn] using ho
  · exact (dequeueEvent_cases hn).2.2 _ respects_notAfter ho fun k hk =>
      steers_notAfter (two_mul_le_of_mem_smallPath hk) (hsafe k hk)

/-- The root of an ordered heap comes after no event in it. -/
theorem HeapObject.OrderedBy.root {h : HeapObject} (hr : Respects r) (ho : h.OrderedBy r)
    {x : Event} (hx : x ∈ h.events) : r (h.eventHeap_ 1) x := by
  obtain ⟨k, h1, hk, rfl⟩ := mem_contents.1 hx
  exact Ordered.root hr.refl hr.trans ho k h1 hk

theorem new_orderedBy (r : Event → Event → Prop) (max_heap : Nat) :
    (HeapObject.new max_heap).OrderedBy r :=
  fun i h2 hn => by simp only [HeapObject.new] at hn; omega

/-! ## What goes in and what comes out -/

/-- The invariant of `HeapLedger.Sound`. -/
structure HeapLedger.Inv (l : HeapLedger) : Prop where
  ordered : l.heap.OrderedBy NotLater
  balanced : l.heap.events + l.dequeued = l.inserted

theorem HeapLedger.Inv.sound {l : HeapLedger} (h : l.Inv) : l.Sound where
  ordered := h.ordered
  balanced := h.balanced
  empty := by
    by_cases hn : l.heap.numEvent_ = 0
    · simp [HeapObject.dequeueEvent, HeapObject.events, hn]
    · obtain ⟨hout, hevents, -⟩ := dequeueEvent_cases hn
      rw [hout, hevents]
      simp
  earliest e he := by
    by_cases hn : l.heap.numEvent_ = 0
    · simp [HeapObject.dequeueEvent, hn] at he
    · obtain ⟨hout, hevents, -⟩ := dequeueEvent_cases hn
      obtain rfl : l.heap.eventHeap_ 1 = e := Option.some.inj (hout.symm.trans he)
      refine ⟨?_, fun x hx => h.ordered.root respects_notLater hx⟩
      rw [hevents]
      exact Multiset.mem_cons_self _ _

theorem HeapLedger.Inv.insertEvent {l : HeapLedger} (h : l.Inv) {now maxsimtime : Nat} {ep : Option Event}
    {heap : HeapObject} {ret : Int} (hins : l.heap.insertEvent now maxsimtime ep = .ok (heap, ret)) :
    HeapLedger.Inv { l.enter (.insertEvent now maxsimtime ep) with heap := heap } := by
  rcases insertEvent_cases hins with ⟨rfl, -, hrejected⟩ | ⟨e, rfl, haccepted, -, -, hevents, hkeep⟩
  · cases ep with
    | none => exact h
    | some e =>
      have henter : l.enter (.insertEvent now maxsimtime (some e)) = l := if_pos (hrejected e rfl)
      rw [henter]
      exact h
  · have henter : l.enter (.insertEvent now maxsimtime (some e)) =
        { l with inserted := e ::ₘ l.inserted } := if_neg haccepted
    rw [henter]
    refine ⟨hkeep _ respects_notLater h.ordered, ?_⟩
    show heap.events + l.dequeued = e ::ₘ l.inserted
    rw [hevents, Multiset.cons_add, h.balanced]

theorem HeapLedger.Inv.dequeueEvent {l : HeapLedger} (h : l.Inv) :
    HeapLedger.Inv { l.enter .dequeueEvent with heap := l.heap.dequeueEvent.2 } := by
  have hordered := dequeueEvent_orderedBy_notLater h.ordered
  by_cases hn : l.heap.numEvent_ = 0
  · have hout : l.heap.dequeueEvent = (none, l.heap) := by simp [HeapObject.dequeueEvent, hn]
    have henter : l.enter .dequeueEvent = l := by simp only [enter, hout]
    rw [henter, hout]
    exact h
  · obtain ⟨hout, hevents, -⟩ := dequeueEvent_cases hn
    have henter : l.enter .dequeueEvent = { l with dequeued := l.heap.eventHeap_ 1 ::ₘ l.dequeued } := by
      simp only [enter, hout]
    rw [henter]
    refine ⟨hordered, ?_⟩
    show l.heap.dequeueEvent.2.events + (l.heap.eventHeap_ 1 ::ₘ l.dequeued) = l.inserted
    rw [← h.balanced, hevents, Multiset.cons_add, Multiset.add_cons]

theorem HeapLedger.Inv.call {l l' : HeapLedger} (h : l.Inv) (c : HeapCall) (hc : l.call c = .ok l') :
    l'.Inv := by
  unfold HeapLedger.call at hc
  cases c with
  | insertEvent now maxsimtime ep =>
    cases hins : l.heap.insertEvent now maxsimtime ep with
    | error e => simp [HeapObject.call, hins] at hc
    | ok p =>
      obtain ⟨heap, ret⟩ := p
      simp only [HeapObject.call, hins] at hc
      rw [← Except.ok.inj hc]
      exact h.insertEvent hins
  | dequeueEvent =>
    rw [← Except.ok.inj hc]
    exact h.dequeueEvent

/-- **The heap by timestamps.** In every run of calls the array is a min-heap, each `dequeueEvent` returns
    one of the earliest events, and no event is lost or duplicated. -/
theorem run_heapSound (max_heap : Nat) (calls : List HeapCall) :
    Run.Always HeapLedger.call HeapLedger.Sound (HeapLedger.new max_heap) calls := by
  refine (Run.Always.of_step (I := HeapLedger.Inv) (fun _ c _ h hc => h.call c hc) ?_ calls).mono
    fun _ h => h.sound
  exact ⟨new_orderedBy _ max_heap, by simp [HeapLedger.new, HeapObject.new, HeapObject.events]⟩

/-! ## Priorities -/

/-- In a heap in priority order, `dequeueEvent` returns an event of the largest priority of its
    time. -/
theorem topPriority_of_orderedBy {h : HeapObject} (ho : h.OrderedBy NotAfter) (c : HeapCall) :
    TopPriority h c := by
  cases c with
  | insertEvent => trivial
  | dequeueEvent =>
    intro e he x hx ht
    by_cases hn : h.numEvent_ = 0
    · simp [HeapObject.dequeueEvent, hn] at he
    · obtain ⟨he', hev, -⟩ := dequeueEvent_cases hn
      obtain rfl : h.eventHeap_ 1 = e := Option.some.inj (he'.symm.trans he)
      have hroot := ho.root respects_notAfter (hev ▸ Multiset.mem_cons_of_mem hx)
      rw [notAfter_iff] at hroot; omega

theorem call_orderedBy_notAfter {h h' : HeapObject} {c : HeapCall} (ho : h.OrderedBy NotAfter)
    (hsafe : TieSafe h c) (hc : h.call c = .ok h') : h'.OrderedBy NotAfter := by
  cases c with
  | insertEvent now maxsimtime ep =>
    cases hins : h.insertEvent now maxsimtime ep with
    | error e => simp [HeapObject.call, hins] at hc
    | ok p =>
      obtain rfl : p.1 = h' := by simpa [HeapObject.call, hins] using hc
      exact insertEvent_orderedBy respects_notAfter ho hins
  | dequeueEvent =>
    obtain rfl : h.dequeueEvent.2 = h' := by simpa [HeapObject.call] using hc
    exact dequeueEvent_orderedBy_notAfter ho hsafe

/-- **Priority order.** In every run of calls that never passes over a hidden sibling, each
    `dequeueEvent` returns an event of the largest priority of its time. -/
theorem run_topPriority (max_heap : Nat) (calls : List HeapCall)
    (h : Run.Along HeapObject.call TieSafe (HeapObject.new max_heap) calls) :
    Run.Along HeapObject.call TopPriority (HeapObject.new max_heap) calls :=
  Run.Along.of_inv (I := HeapObject.OrderedBy NotAfter)
    (fun _ _ _ ho hsafe hc => call_orderedBy_notAfter ho hsafe hc)
    (fun _ c ho _ => topPriority_of_orderedBy ho c) (new_orderedBy _ max_heap) h

/-- Four events come out by priority when the last of them does not hide a sibling. -/
theorem run_topPriority_four :
    let calls := [HeapCall.insertEvent 0 0 (some (newEvent 0 0 0)),
      .insertEvent 0 0 (some (newEvent 1 1 0)), .insertEvent 0 0 (some (newEvent 2 1 5)),
      .insertEvent 0 0 (some (newEvent 3 2 0)), .dequeueEvent, .dequeueEvent]
    Run.Along HeapObject.call TopPriority (HeapObject.new 10) calls :=
  run_topPriority 10 _ (by decide)

/-- The right sibling of the same time is taken although the left one has the larger priority. -/
theorem dequeueEvent_passes_over_priority :
    ¬ ∀ (max_heap : Nat) (calls : List HeapCall),
      Run.Along HeapObject.call TopPriority (HeapObject.new max_heap) calls := by
  intro h
  have hrun := h 10 [.insertEvent 0 0 (some (newEvent 0 0 0)),
    .insertEvent 0 0 (some (newEvent 1 1 5)), .insertEvent 0 0 (some (newEvent 2 1 0)),
    .insertEvent 0 0 (some (newEvent 3 2 0)), .dequeueEvent, .dequeueEvent]
  obtain ⟨htop, -⟩ := (((((hrun.2 _ rfl).2 _ rfl).2 _ rfl).2 _ rfl).2 _ rfl)
  have hle := htop (newEvent 2 1 0) (by decide) (newEvent 1 1 5)
    (mem_contents.2 ⟨1, by decide, by decide, by decide⟩) rfl
  exact absurd hle (by decide)

end Engine
