import Mathlib.Data.List.Nodup
import Nctuns.Dsdv.Dsdvd

/-!
# DSDV routes form no loops

As long as the nodes take no stale routes, each node's route is the best one that it has ever held, and
its next hop has held a better one.
-/

namespace Dsdv

variable {N : Type*}

instance : IsStrictOrder (Int × Int) Better where
  irrefl k h := by
    rcases h with h | ⟨-, h⟩
    · exact Int.lt_irrefl _ h
    · exact Int.lt_irrefl _ h
  trans k k' k'' h h' := by
    unfold Better at *
    omega

theorem age_self (now : Nat) {r : RtUnit N} (h : r.install_time = now) : DSDVd.age now r = 0 := by
  unfold DSDVd.age
  rw [h]
  omega

/-- The valid route in an entry. -/
def RtUnit.route (r : RtUnit N) : Option (N × (Int × Int)) :=
  if r.metric < BIG then some (r.nextHop, (r.num, r.metric)) else none

namespace DSDVd

variable [DecidableEq N] {n from_ dst : N} {now : Nat} {s : DSDVd N} {a : RtUnit N}

/-! ## The table -/

/-- The first row of a destination. -/
theorem getIndex_some {rows : List (RtUnit N)} {i : Nat} (h : getIndex rows dst = some i) :
    ∃ pre b post, rows = pre ++ b :: post ∧ pre.length = i ∧ b.dst = dst ∧ ∀ r ∈ pre, r.dst ≠ dst := by
  induction rows generalizing i with
  | nil => cases h
  | cons r rows ih =>
    rw [getIndex, List.findIdx?_cons] at h
    by_cases hr : r.dst = dst
    · rw [if_pos (decide_eq_true hr)] at h
      obtain rfl : 0 = i := Option.some.inj h
      exact ⟨[], r, rows, rfl, rfl, hr, fun _ h => absurd h List.not_mem_nil⟩
    · rw [if_neg (by simp [hr])] at h
      obtain ⟨j, hj, rfl⟩ := Option.map_eq_some_iff.1 h
      obtain ⟨pre, b, post, rfl, rfl, hb, hpre⟩ := ih hj
      refine ⟨r :: pre, b, post, rfl, rfl, hb, ?_⟩
      intro q hq
      rcases List.mem_cons.1 hq with rfl | hq
      · exact hr
      · exact hpre q hq

/-- There is no row of the destination. -/
theorem getIndex_none {rows : List (RtUnit N)} (h : getIndex rows dst = none) : ∀ r ∈ rows, r.dst ≠ dst := by
  rw [getIndex, List.findIdx?_eq_none_iff] at h
  intro r hr
  simpa using h r hr

/-- What `update` can do. -/
theorem update_cases (now : Nat) (from_ : N) (s : DSDVd N) (a : RtUnit N) :
    s.update now from_ a = s ∨
    (a.dst ≠ s.mip ∧ a.dst = a.sign_host ∧ (∀ r ∈ s.rows, r.dst ≠ a.dst) ∧
      s.update now from_ a = { s with rows := s.rows ++ [newUnit now from_ a] }) ∨
    (∃ pre b post, s.rows = pre ++ b :: post ∧ b.dst = a.dst ∧ (∀ r ∈ pre, r.dst ≠ a.dst) ∧
      a.dst ≠ s.mip ∧ a.dst = a.sign_host ∧
      (a.num > b.num ∨ (a.num = b.num ∧ a.metric + 1 < b.metric)) ∧
      s.update now from_ a = { s with
        rows := pre ++ takeUnit now from_ a b :: post
        now_counter := if b.nextHop ≠ from_ then s.now_counter + 1 else s.now_counter }) ∨
    (∃ pre b post, s.rows = pre ++ b :: post ∧ b.dst = a.dst ∧ (∀ r ∈ pre, r.dst ≠ a.dst) ∧
      pre ≠ [] ∧ a.dst ≠ s.mip ∧ a.dst ≠ a.sign_host ∧ b.nextHop = from_ ∧ b.already_bcast = false ∧
      s.update now from_ a = { s with
        rows := pre ++ breakUnit from_ a b :: post
        now_counter := s.now_counter + 1 }) := by
  unfold update
  by_cases hmip : a.dst = s.mip
  · left
    rw [if_pos hmip]
  rw [if_neg hmip]
  by_cases hsign : a.dst = a.sign_host
  · rw [if_pos hsign]
    cases hindex : getIndex s.rows a.dst with
    | none =>
      right; left
      refine ⟨hmip, hsign, getIndex_none hindex, ?_⟩
      show { s with rows := addUnit s.rows (newUnit now from_ a) } = _
      rw [addUnit, show (newUnit now from_ a).dst = a.dst from rfl, hindex]
    | some i =>
      obtain ⟨pre, b, post, hrows, hlen, hb, hpre⟩ := getIndex_some hindex
      have hget : s.rows[i]? = some b := by
        rw [hrows, List.getElem?_append_right (Nat.le_of_eq hlen), hlen, Nat.sub_self]
        rfl
      have hset : ∀ b', s.rows.set i b' = pre ++ b' :: post := by
        intro b'
        rw [hrows, List.set_append_right _ _ (Nat.le_of_eq hlen), hlen, Nat.sub_self]
        rfl
      simp only [hget]
      by_cases hfresh : a.num > b.num ∨ (a.num = b.num ∧ a.metric + 1 < b.metric)
      · right; right; left
        rw [if_pos hfresh, hset]
        exact ⟨pre, b, post, hrows, hb, hpre, hmip, hsign, hfresh, rfl⟩
      · left
        rw [if_neg hfresh]
  · rw [if_neg hsign]
    cases hindex : getIndex s.rows a.dst with
    | none => exact Or.inl rfl
    | some i =>
      obtain ⟨pre, b, post, hrows, hlen, hb, hpre⟩ := getIndex_some hindex
      have hget : s.rows[i]? = some b := by
        rw [hrows, List.getElem?_append_right (Nat.le_of_eq hlen), hlen, Nat.sub_self]
        rfl
      have hset : ∀ b', s.rows.set i b' = pre ++ b' :: post := by
        intro b'
        rw [hrows, List.set_append_right _ _ (Nat.le_of_eq hlen), hlen, Nat.sub_self]
        rfl
      simp only [hget]
      by_cases hbreak : i > 0 ∧ b.nextHop = from_ ∧ b.already_bcast = false
      · right; right; right
        rw [if_pos hbreak, hset]
        have hbehind : pre ≠ [] := List.ne_nil_of_length_pos (hlen ▸ hbreak.1)
        exact ⟨pre, b, post, hrows, hb, hpre, hbehind, hmip, hsign, hbreak.2.1, hbreak.2.2, rfl⟩
      · left
        rw [if_neg hbreak]

/-- The route of the first row. -/
theorem routeTo_eq {mip : N} (rows : List (RtUnit N)) (hs : s.rows = rows) (hmip : s.mip = mip) :
    s.routeTo dst = if dst = mip then none else (rows.find? fun r => r.dst = dst).bind RtUnit.route := by
  subst hs hmip
  rfl

/-- A row of the destination takes the place of another one. -/
theorem find_replace (pre post : List (RtUnit N)) (b : RtUnit N) (hb : b.dst = a.dst)
    (hpre : ∀ r ∈ pre, r.dst ≠ a.dst) (dst : N) :
    (pre ++ b :: post).find? (fun r => r.dst = dst) =
      if dst = a.dst then some b else (pre ++ post).find? fun r => r.dst = dst := by
  by_cases hdst : dst = a.dst
  · subst hdst
    rw [if_pos rfl, List.find?_append, List.find?_eq_none.2 (fun r hr => by simpa using hpre r hr),
      Option.none_or, List.find?_cons, decide_eq_true hb]
  · rw [if_neg hdst, List.find?_append, List.find?_append, List.find?_cons,
      decide_eq_false (by rw [hb]; exact Ne.symm hdst)]

/-- An update leaves the node's address. -/
theorem update_mip (now : Nat) (from_ : N) (s : DSDVd N) (a : RtUnit N) :
    (s.update now from_ a).mip = s.mip := by
  rcases update_cases now from_ s a with h | ⟨-, -, -, h⟩ | ⟨_, _, _, -, -, -, -, -, -, h⟩ |
      ⟨_, _, _, -, -, -, -, -, -, -, -, h⟩ <;> rw [h]

theorem update_timeout (now : Nat) (from_ : N) (s : DSDVd N) (a : RtUnit N) :
    (s.update now from_ a).expire_time_out_ = s.expire_time_out_ := by
  rcases update_cases now from_ s a with h | ⟨-, -, -, h⟩ | ⟨_, _, _, -, -, -, -, -, -, h⟩ |
      ⟨_, _, _, -, -, -, -, -, -, -, -, h⟩ <;> rw [h]

/-- Updates leave the time after which routes expire. -/
theorem foldl_update_timeout (now : Nat) (from_ : N) (s : DSDVd N) (units : List (RtUnit N)) :
    (units.foldl (update now from_) s).expire_time_out_ = s.expire_time_out_ := by
  induction units generalizing s with
  | nil => rfl
  | cons a units ih => rw [List.foldl_cons, ih, update_timeout]

/-- `update` with an entry changes the route to its destination only. It becomes the one in the entry,
    if that is fresher or shorter than what there is, or it is lost. -/
theorem update_routeTo (now : Nat) (from_ : N) (s : DSDVd N) (a : RtUnit N) :
    (∀ dst, (s.update now from_ a).routeTo dst = s.routeTo dst ∨
      (s.update now from_ a).routeTo dst = none) ∨
    (Net.Takes s a ∧ (∀ dst, dst ≠ a.dst → (s.update now from_ a).routeTo dst = s.routeTo dst) ∧
      (s.update now from_ a).routeTo a.dst = some (from_, (a.num, a.metric + 1))) := by
  rcases update_cases now from_ s a with h | ⟨hmip, hsign, hnew, h⟩ |
      ⟨pre, b, post, hrows, hb, hpre, hmip, hsign, hfresh, h⟩ |
      ⟨pre, b, post, hrows, hb, hpre, -, hmip, hsign, -, -, h⟩
  · left
    intro dst
    rw [h]
    exact Or.inl rfl
  · have hfind : ∀ dst, (s.rows ++ [newUnit now from_ a]).find? (fun r => r.dst = dst) =
        if dst = a.dst then some (newUnit now from_ a) else s.rows.find? fun r => r.dst = dst := by
      intro dst
      have hrep := find_replace s.rows [] (newUnit now from_ a) rfl hnew dst
      rwa [List.append_nil] at hrep
    have hroute : ∀ dst, (s.update now from_ a).routeTo dst =
        if dst = s.mip then none else (if dst = a.dst then some (newUnit now from_ a)
          else s.rows.find? fun r => r.dst = dst).bind RtUnit.route := by
      intro dst
      rw [← hfind]
      exact routeTo_eq _ (by rw [h]) (by rw [h])
    have hother : ∀ dst, dst ≠ a.dst → (s.update now from_ a).routeTo dst = s.routeTo dst := by
      intro dst hdst
      rw [hroute, if_neg hdst]
      rfl
    have hthis := hroute a.dst
    rw [if_neg hmip, if_pos rfl] at hthis
    by_cases hbig : a.metric + 1 < BIG
    · right
      refine ⟨⟨hmip, hsign, hbig, ?_⟩, hother, ?_⟩
      · intro b hb
        rw [List.find?_eq_none.2 (fun r hr => by simpa using hnew r hr)] at hb
        cases hb
      · rw [hthis]
        exact if_pos hbig
    · left
      intro dst
      by_cases hdst : dst = a.dst
      · right
        rw [hdst, hthis]
        exact if_neg hbig
      · exact Or.inl (hother dst hdst)
  · have hroute : ∀ dst, (s.update now from_ a).routeTo dst =
        if dst = s.mip then none else (if dst = a.dst then some (takeUnit now from_ a b)
          else (pre ++ post).find? fun r => r.dst = dst).bind RtUnit.route := by
      intro dst
      rw [← find_replace (a := a) pre post (takeUnit now from_ a b) rfl hpre]
      exact routeTo_eq _ (by rw [h]) (by rw [h])
    have hother : ∀ dst, dst ≠ a.dst → (s.update now from_ a).routeTo dst = s.routeTo dst := by
      intro dst hdst
      rw [hroute, if_neg hdst, routeTo_eq _ hrows rfl, find_replace pre post b hb hpre, if_neg hdst]
    have hthis := hroute a.dst
    rw [if_neg hmip, if_pos rfl] at hthis
    by_cases hbig : a.metric + 1 < BIG
    · right
      refine ⟨⟨hmip, hsign, hbig, ?_⟩, hother, ?_⟩
      · intro b' hb'
        rw [hrows, find_replace pre post b hb hpre, if_pos rfl] at hb'
        obtain rfl := Option.some.inj hb'
        exact hfresh
      · rw [hthis]
        exact if_pos hbig
    · left
      intro dst
      by_cases hdst : dst = a.dst
      · right
        rw [hdst, hthis]
        exact if_neg hbig
      · exact Or.inl (hother dst hdst)
  · left
    intro dst
    have hroute : (s.update now from_ a).routeTo dst =
        if dst = s.mip then none else (if dst = a.dst then some (breakUnit from_ a b)
          else (pre ++ post).find? fun r => r.dst = dst).bind RtUnit.route := by
      rw [← find_replace (a := a) pre post (breakUnit from_ a b) rfl hpre]
      exact routeTo_eq _ (by rw [h]) (by rw [h])
    by_cases hdst : dst = a.dst
    · right
      rw [hroute, if_pos hdst, hdst, if_neg hmip]
      rfl
    · left
      rw [hroute, if_neg hdst, routeTo_eq _ hrows rfl, find_replace pre post b hb hpre, if_neg hdst]

/-! ## Tables between two steps -/

/-- The table while a node with the entry `own` goes through an advertisement of entries for `done`. -/
structure Going (own : RtUnit N) (now : Nat) (done : List N) (s : DSDVd N) : Prop where
  mip : s.mip = own.dst
  head : ∃ rest, s.rows = own :: rest
  unmarked : own.need_adv_now = false
  nodup : (s.rows.map (·.dst)).Nodup
  counter : s.now_counter = s.rows.countP fun r => r.need_adv_now
  flagged : ∀ r ∈ s.rows, r.need_adv_now = true →
    r.dst ∈ done ∧ (r.install_time = now ∨ r.already_bcast = true)

/-- The table between two steps: the first entry is that of the node, and none is marked. -/
structure Tidy (n : N) (s : DSDVd N) : Prop where
  mip : s.mip = n
  own : ∃ num time rest, s.rows = ownUnit n num time :: rest
  nodup : (s.rows.map (·.dst)).Nodup
  unmarked : ∀ r ∈ s.rows, r.need_adv_now = false
  counter : s.now_counter = 0

omit [DecidableEq N] in
/-- The table of a node that knows itself. -/
theorem init_tidy (n : N) (expire_time_out_ now : Nat) : (init n expire_time_out_ now).Tidy n where
  mip := rfl
  own := ⟨0, now, [], rfl⟩
  nodup := by simp [init]
  unmarked r hr := by
    obtain rfl := List.mem_singleton.1 hr
    rfl
  counter := rfl

omit [DecidableEq N] in
/-- Before the first unit of an advertisement. -/
theorem Tidy.going {num : Int} {time : Nat} {rest : List (RtUnit N)} (h : s.Tidy n)
    (hrows : s.rows = ownUnit n num time :: rest) (now : Nat) : s.Going (ownUnit n num time) now [] where
  mip := h.mip
  head := ⟨rest, hrows⟩
  unmarked := rfl
  nodup := h.nodup
  counter := by
    rw [h.counter]
    exact (List.countP_eq_zero.2 fun r hr => by simp [h.unmarked r hr]).symm
  flagged r hr hneed := by
    rw [h.unmarked r hr] at hneed
    cases hneed

omit [DecidableEq N] in
/-- An entry that has not been changed yet changes. -/
theorem Going.replace {own : RtUnit N} {done : List N} (h : s.Going own now done)
    {pre post : List (RtUnit N)} {b : RtUnit N} (b' : RtUnit N) (hrows : s.rows = pre ++ b :: post)
    (hdone : b.dst ∉ done) (hne : b.dst ≠ own.dst)
    (hb' : b'.dst = b.dst) (hmark : b'.need_adv_now = true → b'.install_time = now ∨ b'.already_bcast = true)
    {counter : Nat} (hcounter : counter = s.now_counter + if b'.need_adv_now = true then 1 else 0) :
    Going own now (b.dst :: done) { s with rows := pre ++ b' :: post, now_counter := counter } := by
  have hunmarked : b.need_adv_now = false := by
    by_contra hmarked
    exact hdone (h.flagged b (by rw [hrows]; simp) (by simpa using hmarked)).1
  refine ⟨h.mip, ?_, h.unmarked, ?_, ?_, ?_⟩
  · obtain ⟨rest, hown⟩ := h.head
    cases pre with
    | nil =>
      rw [hrows] at hown
      obtain ⟨rfl, -⟩ := List.cons.inj hown
      exact absurd rfl hne
    | cons q pre =>
      rw [hrows] at hown
      obtain ⟨rfl, -⟩ := List.cons.inj hown
      exact ⟨_, rfl⟩
  · have hnodup := h.nodup
    rw [hrows, List.map_append, List.map_cons] at hnodup
    show ((pre ++ b' :: post).map (·.dst)).Nodup
    rw [List.map_append, List.map_cons, hb']
    exact hnodup
  · show counter = (pre ++ b' :: post).countP fun r => r.need_adv_now
    rw [hcounter, h.counter, hrows, List.countP_append, List.countP_append, List.countP_cons,
      List.countP_cons, hunmarked]
    simp only [Bool.false_eq_true, if_false]
    omega
  · intro r hr hmarked
    have hold : r ∈ pre ∨ r ∈ post → r.dst ∈ b.dst :: done ∧ (r.install_time = now ∨ r.already_bcast = true) := by
      intro hmem
      obtain ⟨hin, hwhen⟩ := h.flagged r (by rw [hrows]; simp; tauto) hmarked
      exact ⟨List.mem_cons_of_mem _ hin, hwhen⟩
    rcases List.mem_append.1 hr with hr | hr
    · exact hold (Or.inl hr)
    · rcases List.mem_cons.1 hr with rfl | hr
      · exact ⟨by rw [hb']; exact List.mem_cons_self, hmark hmarked⟩
      · exact hold (Or.inr hr)

omit [DecidableEq N] in
/-- More destinations are done. -/
theorem Going.mono {own : RtUnit N} {done done' : List N} (h : s.Going own now done)
    (hsub : ∀ d ∈ done, d ∈ done') : s.Going own now done' where
  mip := h.mip
  head := h.head
  unmarked := h.unmarked
  nodup := h.nodup
  counter := h.counter
  flagged r hr hneed := ⟨hsub _ (h.flagged r hr hneed).1, (h.flagged r hr hneed).2⟩

/-- **One unit** of an advertisement. -/
theorem Going.update {own : RtUnit N} {done : List N} (h : s.Going own now done) (hdone : a.dst ∉ done) :
    (s.update now from_ a).Going own now (a.dst :: done) := by
  rcases update_cases now from_ s a with hs | ⟨hmip, hsign, hnew, hs⟩ |
      ⟨pre, b, post, hrows, hb, hpre, hmip, hsign, hfresh, hs⟩ |
      ⟨pre, b, post, hrows, hb, hpre, -, hmip, hsign, -, -, hs⟩
  · rw [hs]
    exact h.mono fun d hd => List.mem_cons_of_mem _ hd
  · rw [hs]
    refine ⟨h.mip, ?_, h.unmarked, ?_, ?_, ?_⟩
    · obtain ⟨rest, hown⟩ := h.head
      exact ⟨rest ++ [newUnit now from_ a], by rw [hown]; rfl⟩
    · show ((s.rows ++ [newUnit now from_ a]).map (·.dst)).Nodup
      rw [List.map_append]
      refine List.nodup_append.2 ⟨h.nodup, by simp, ?_⟩
      intro d hd e he
      obtain ⟨r, hr, rfl⟩ := List.mem_map.1 hd
      obtain rfl := List.mem_singleton.1 he
      exact hnew r hr
    · show s.now_counter = (s.rows ++ [newUnit now from_ a]).countP fun r => r.need_adv_now
      rw [List.countP_append, h.counter]
      rfl
    · intro r hr hmarked
      rcases List.mem_append.1 hr with hr | hr
      · obtain ⟨hin, hwhen⟩ := h.flagged r hr hmarked
        exact ⟨List.mem_cons_of_mem _ hin, hwhen⟩
      · obtain rfl := List.mem_singleton.1 hr
        cases hmarked
  · rw [hs, ← hb]
    rw [← hb] at hdone hmip
    refine h.replace (takeUnit now from_ a b) hrows hdone (h.mip ▸ hmip) hb.symm
      (fun _ => Or.inl rfl) ?_
    by_cases hhop : b.nextHop = from_ <;> simp [takeUnit, hhop]
  · rw [hs, ← hb]
    rw [← hb] at hdone hmip
    exact h.replace (breakUnit from_ a b) hrows hdone (h.mip ▸ hmip) hb.symm
      (fun _ => Or.inr rfl) rfl

/-- The units of an advertisement, one behind the other. -/
theorem Going.foldl {own : RtUnit N} {units : List (RtUnit N)} {done : List N} (h : s.Going own now done)
    (from_ : N) (hdone : ∀ a ∈ units, a.dst ∉ done) (hnodup : (units.map (·.dst)).Nodup) :
    ∃ done, (units.foldl (DSDVd.update now from_) s).Going own now done := by
  induction units generalizing s done with
  | nil => exact ⟨done, h⟩
  | cons a units ih =>
    rw [List.map_cons, List.nodup_cons] at hnodup
    refine ih (h.update (hdone a List.mem_cons_self)) ?_ hnodup.2
    intro b hb hmem
    rcases List.mem_cons.1 hmem with hsame | hmem
    · exact hnodup.1 (hsame ▸ List.mem_map_of_mem hb)
    · exact hdone b (List.mem_cons_of_mem _ hb) hmem

/-! ## Stale entries -/

/-- Labels leave the destination. -/
theorem labelUnit_dst (s : DSDVd N) (now : Nat) (r : RtUnit N) : (s.labelUnit now r).dst = r.dst := by
  unfold labelUnit
  split
  · split <;> rfl
  · rfl

/-- An entry that is dropped by no label keeps its route. -/
theorem labelUnit_route (s : DSDVd N) (now : Nat) (r : RtUnit N) :
    (s.labelUnit now r).route = none ∨ (s.labelUnit now r).route = r.route := by
  unfold labelUnit
  split
  · split
    · exact Or.inl rfl
    · exact Or.inr rfl
  · exact Or.inr rfl

/-- The entry `r'` is the entry `r`, unless its route is lost. -/
def Loses (r r' : RtUnit N) : Prop := r'.dst = r.dst ∧ (r'.route = none ∨ r'.route = r.route)

theorem labelUnit_loses (s : DSDVd N) (now : Nat) (r : RtUnit N) : Loses r (s.labelUnit now r) :=
  ⟨labelUnit_dst s now r, labelUnit_route s now r⟩

/-- The marks after the labels: those from before, and the neighbours reported dead. -/
theorem labelUnit_mark (s : DSDVd N) (now : Nat) {r : RtUnit N}
    (h : r.need_adv_now = true → r.install_time = now ∨ r.already_bcast = true) :
    (if (s.labelUnit now r).need_adv_now = true then 1 else 0) =
      (if r.need_adv_now = true then 1 else 0) + if s.Dies now r then 1 else 0 := by
  unfold labelUnit
  by_cases hdies : s.Dies now r
  · have hunmarked : r.need_adv_now = false := by
      by_contra hmarked
      rcases h (by simpa using hmarked) with hnow | halready
      · exact absurd hdies.1 (by rw [age_self now hnow]; exact Nat.not_lt_zero _)
      · rw [hdies.2.2] at halready
        cases halready
    rw [if_pos hdies.1, if_pos hdies.2, if_pos hdies, hunmarked]
    rfl
  · rw [if_neg hdies, Nat.add_zero]
    by_cases hage : age now r > s.expire_time_out_
    · rw [if_pos hage, if_neg fun hdead => hdies ⟨hage, hdead⟩]
    · rw [if_neg hage]

/-- The labels are counted: those that were there, and those of the routes that die. -/
theorem countP_label (s : DSDVd N) (now : Nat) {rows : List (RtUnit N)}
    (h : ∀ r ∈ rows, r.need_adv_now = true → r.install_time = now ∨ r.already_bcast = true) :
    (rows.map (s.labelUnit now)).countP (fun r => r.need_adv_now) =
      rows.countP (fun r => r.need_adv_now) + rows.countP fun r => s.Dies now r := by
  induction rows with
  | nil => rfl
  | cons r rows ih =>
    have hr := labelUnit_mark s now (h r List.mem_cons_self)
    have hrows := ih fun q hq => h q (List.mem_cons_of_mem _ hq)
    simp only [List.map_cons, List.countP_cons, decide_eq_true_eq] at hr ⊢
    omega

/-- What a node sends: each entry is its own, or one of a route that it has. -/
structure Sent (n : N) (s : DSDVd N) (advert : Advert N) : Prop where
  from_ : advert.from_ = n
  nodup : (advert.units.map (·.dst)).Nodup
  routes : ∀ u ∈ advert.units, u.metric < BIG →
    u.dst = n ∨ ∃ m, s.routeTo u.dst = some (m, (u.num, u.metric))

/-- The route of a row of the table. -/
theorem routeTo_of_mem (hnodup : (s.rows.map (·.dst)).Nodup) {r : RtUnit N} (hr : r ∈ s.rows)
    (hmip : r.dst ≠ s.mip) : s.routeTo r.dst = r.route := by
  have hfind : (s.rows.find? fun q => q.dst = r.dst) = some r := by
    cases hq : s.rows.find? fun q => q.dst = r.dst with
    | none => exact absurd (List.find?_eq_none.1 hq r hr) (by simp)
    | some q =>
      have hdst : q.dst = r.dst := by simpa using List.find?_some hq
      rw [List.inj_on_of_nodup_map hnodup (List.mem_of_find?_eq_some hq) hr hdst]
  rw [routeTo_eq s.rows rfl rfl, if_neg hmip, hfind]
  rfl

/-- A table all of whose routes are among those of another one. -/
theorem routeTo_lose {s' : DSDVd N} (hmip : s'.mip = s.mip) (hnodup : (s.rows.map (·.dst)).Nodup)
    (hrows : ∀ r' ∈ s'.rows, ∃ r ∈ s.rows, Loses r r')
    (dst : N) : s'.routeTo dst = s.routeTo dst ∨ s'.routeTo dst = none := by
  by_cases hdst : dst = s.mip
  · right
    rw [routeTo_eq s'.rows rfl hmip, if_pos hdst]
  · rw [routeTo_eq s'.rows rfl hmip, if_neg hdst]
    cases hfind : s'.rows.find? fun r => r.dst = dst with
    | none => exact Or.inr rfl
    | some r' =>
      obtain ⟨r, hr, hsame, hroute⟩ := hrows r' (List.mem_of_find?_eq_some hfind)
      have hr' : r'.dst = dst := by simpa using List.find?_some hfind
      rw [← hr', hsame] at hdst ⊢
      rw [routeTo_of_mem hnodup hr hdst]
      exact hroute.symm

theorem labelUnit_young (s : DSDVd N) {r : RtUnit N} (h : age now r ≤ s.expire_time_out_) :
    s.labelUnit now r = r := if_neg (Nat.not_lt.2 h)

omit [DecidableEq N] in
/-- The units of an immediate advertisement are entries of the table. -/
theorem sendAdvPktNow_ok {r : RtUnit N} {rest junk : List (RtUnit N)} (hrows : s.rows = r :: rest)
    (hcounter : s.now_counter = rest.countP fun q => q.need_adv_now) :
    s.sendAdvPktNow junk = .ok ({ s with rows := r :: rest.map fun q => { q with need_adv_now := false } },
      ⟨s.mip, r :: rest.filter fun q => q.need_adv_now⟩) := by
  have hlen : (s.rows.take 1 ++ s.rows.tail.filter fun q => q.need_adv_now).length = s.now_counter + 1 := by
    rw [hrows, hcounter, List.countP_eq_length_filter, List.length_append, Nat.add_comm]
    rfl
  unfold sendAdvPktNow
  simp only [hlen, Nat.sub_self, List.take_zero, List.append_nil]
  rw [if_neg (Nat.lt_irrefl _), hrows]
  rfl

/-- The units of an advertisement are rows, or rows that have lost their route. -/
theorem Sent.of_rows (hmip : s.mip = n) (hnodup : (s.rows.map (·.dst)).Nodup) {units : List (RtUnit N)}
    (hunits : (units.map (·.dst)).Nodup) (hrows : ∀ u ∈ units, ∃ r ∈ s.rows, Loses r u) :
    Sent n s ⟨n, units⟩ where
  from_ := rfl
  nodup := hunits
  routes u hu hmetric := by
    obtain ⟨r, hr, hdst, hroute⟩ := hrows u hu
    have hvalid : u.route = some (u.nextHop, (u.num, u.metric)) := if_pos hmetric
    rw [hvalid] at hroute
    by_cases hown : u.dst = n
    · exact Or.inl hown
    · right
      rcases hroute with hroute | hroute
      · cases hroute
      · refine ⟨u.nextHop, ?_⟩
        rw [hdst] at hown ⊢
        rw [routeTo_of_mem hnodup hr (by rwa [hmip]), ← hroute]

omit [DecidableEq N] in
/-- The rebuilt table is one, and has no other entries. -/
theorem Tidy.rebuild (h : s.Tidy n) (expired : Bool) :
    (if expired then { s with rows := s.rows.filter fun r => !r.expire_flag } else s).Tidy n ∧
      ∀ r ∈ (if expired then { s with rows := s.rows.filter fun r => !r.expire_flag } else s).rows,
        r ∈ s.rows := by
  cases expired with
  | false => exact ⟨h, fun r hr => hr⟩
  | true =>
    refine ⟨⟨h.mip, ?_, ?_, ?_, h.counter⟩, fun r hr => (List.mem_filter.1 hr).1⟩
    · obtain ⟨num, time, rest, hrows⟩ := h.own
      refine ⟨num, time, rest.filter fun r => !r.expire_flag, ?_⟩
      show s.rows.filter _ = _
      rw [hrows]
      rfl
    · exact h.nodup.sublist (List.filter_sublist.map _)
    · exact fun r hr => h.unmarked r (List.mem_filter.1 hr).1

/-- `selfCheck` writes exactly the marked entries, and routes are only lost. -/
theorem Going.selfCheck {num : Int} {time : Nat} {done : List N} (h : s.Going (ownUnit n num time) now done)
    (hage : age now (ownUnit n num time) ≤ s.expire_time_out_) (junk : List (RtUnit N)) :
    ∃ s' adverts, s.selfCheck now junk = .ok (s', adverts) ∧ s'.Tidy n ∧
      (∀ advert ∈ adverts, Sent n s advert) ∧
      ∀ dst, s'.routeTo dst = s.routeTo dst ∨ s'.routeTo dst = none := by
  obtain ⟨rest, hrows⟩ := h.head
  have hmip : s.mip = n := h.mip
  have hlabelled : s.rows.map (s.labelUnit now) = ownUnit n num time :: rest.map (s.labelUnit now) := by
    rw [hrows, List.map_cons, labelUnit_young s hage]
  have hcounter : s.now_counter + s.rows.countP (fun r => s.Dies now r) =
      (rest.map (s.labelUnit now)).countP fun q => q.need_adv_now := by
    rw [h.counter, ← countP_label s now fun q hq hmarked => (h.flagged q hq hmarked).2, hlabelled,
      List.countP_cons, h.unmarked, if_neg Bool.false_ne_true, Nat.add_zero]
  have hnodup : ((ownUnit n num time :: rest.map (s.labelUnit now)).map (·.dst)).Nodup := by
    have hdsts : (s.rows.map (s.labelUnit now)).map (·.dst) = s.rows.map (·.dst) := by
      rw [List.map_map]
      refine List.map_congr_left ?_
      intro q hq
      rw [Function.comp_apply, labelUnit_dst]
    rw [← hlabelled, hdsts]
    exact h.nodup
  have hloses : ∀ q' ∈ ownUnit n num time :: rest.map (s.labelUnit now), ∃ q ∈ s.rows, Loses q q' := by
    rw [← hlabelled]
    intro q' hq'
    obtain ⟨q, hq, rfl⟩ := List.mem_map.1 hq'
    exact ⟨q, hq, labelUnit_loses s now q⟩
  unfold DSDVd.selfCheck
  simp only [hlabelled, hcounter]
  generalize s.rows.any (fun r => s.Expires now r) = expired
  generalize rest.map (s.labelUnit now) = labelled at hcounter hnodup hloses ⊢
  by_cases hpos : labelled.countP (fun q => q.need_adv_now) > 0
  · rw [if_pos hpos, sendAdvPktNow_ok rfl rfl]
    have htidy : Tidy n { s with
        rows := ownUnit n num time :: labelled.map fun q => { q with need_adv_now := false }
        now_counter := 0 } := by
      refine ⟨hmip, ⟨num, time, _, rfl⟩, ?_, ?_, rfl⟩
      · show ((ownUnit n num time :: labelled.map fun q => { q with need_adv_now := false }).map (·.dst)).Nodup
        rw [List.map_cons, List.map_map]
        exact hnodup
      · intro q hq
        rcases List.mem_cons.1 hq with rfl | hq
        · rfl
        · obtain ⟨p, -, rfl⟩ := List.mem_map.1 hq
          rfl
    obtain ⟨htidy', hmem⟩ := htidy.rebuild expired
    refine ⟨_, _, rfl, htidy', ?_, routeTo_lose (by rw [htidy'.mip, hmip]) h.nodup ?_⟩
    · intro advert hadvert
      obtain rfl := List.mem_singleton.1 hadvert
      show Sent n s ⟨s.mip, _⟩
      rw [hmip]
      refine Sent.of_rows hmip h.nodup (hnodup.sublist ((List.filter_sublist.cons_cons _).map _)) ?_
      intro u hu
      refine hloses u ?_
      rcases List.mem_cons.1 hu with rfl | hu
      · exact List.mem_cons_self
      · exact List.mem_cons_of_mem _ (List.mem_filter.1 hu).1
    · intro q' hq'
      rcases List.mem_cons.1 (hmem q' hq') with rfl | hq'
      · exact hloses _ List.mem_cons_self
      · obtain ⟨p, hp, rfl⟩ := List.mem_map.1 hq'
        exact hloses p (List.mem_cons_of_mem _ hp)
  · rw [if_neg hpos]
    have htidy : Tidy n { s with
        rows := ownUnit n num time :: labelled
        now_counter := labelled.countP fun q => q.need_adv_now } := by
      refine ⟨hmip, ⟨num, time, _, rfl⟩, hnodup, ?_, Nat.eq_zero_of_not_pos hpos⟩
      intro q hq
      rcases List.mem_cons.1 hq with rfl | hq
      · rfl
      · simpa using List.countP_eq_zero.1 (Nat.eq_zero_of_not_pos hpos) q hq
    obtain ⟨htidy', hmem⟩ := htidy.rebuild expired
    refine ⟨_, _, rfl, htidy', fun _ h => absurd h List.not_mem_nil,
      routeTo_lose (by rw [htidy'.mip, hmip]) h.nodup fun q' hq' => hloses q' (hmem q' hq')⟩

omit [DecidableEq N] in
/-- The node's own row is new. -/
theorem renew_rows {r : RtUnit N} {rest : List (RtUnit N)} (hrows : s.rows = r :: rest) (now : Nat) :
    (s.renew now).rows = { ownUnit s.mip s.seq now with already_bcast := r.already_bcast } :: rest := by
  unfold renew
  rw [hrows]
  rfl

omit [DecidableEq N] in
/-- The node's own row gets the next number. -/
theorem Tidy.renew_rows (h : s.Tidy n) {num : Int} {time : Nat} {rest : List (RtUnit N)}
    (hrows : s.rows = ownUnit n num time :: rest) (now : Nat) :
    (s.renew now).rows = ownUnit n s.seq now :: rest := by
  rw [DSDVd.renew_rows hrows, h.mip]
  rfl

omit [DecidableEq N] in
/-- The table with a new entry for the node itself. -/
theorem Tidy.renew (h : s.Tidy n) (now : Nat) : (s.renew now).Tidy n := by
  obtain ⟨num, time, rest, hrows⟩ := h.own
  have hrenewed := h.renew_rows hrows now
  refine ⟨h.mip, ⟨s.seq, now, rest, hrenewed⟩, ?_, ?_, h.counter⟩
  · have hold := h.nodup
    rw [hrows] at hold
    rw [hrenewed]
    exact hold
  · intro q hq
    rw [hrenewed] at hq
    rcases List.mem_cons.1 hq with rfl | hq
    · rfl
    · exact h.unmarked q (by rw [hrows]; exact List.mem_cons_of_mem _ hq)

/-- The node's own row is not a route. -/
theorem Tidy.renew_routeTo (h : s.Tidy n) (now : Nat) (dst : N) :
    (s.renew now).routeTo dst = s.routeTo dst := by
  obtain ⟨num, time, rest, hrows⟩ := h.own
  rw [routeTo_eq _ hrows h.mip, routeTo_eq _ (h.renew_rows hrows now) (h.renew now).mip]
  by_cases hmip : dst = n
  · rw [if_pos hmip, if_pos hmip]
  · have hne : ∀ num time, (ownUnit n num time).dst ≠ dst := fun _ _ => Ne.symm hmip
    rw [if_neg hmip, if_neg hmip, List.find?_cons_of_neg (by simpa using hne _ _),
      List.find?_cons_of_neg (by simpa using hne _ _)]

/-- A regular advertisement has the whole table, with a new entry for the node itself. -/
theorem Tidy.sendAdvPktRegular (h : s.Tidy n) (now : Nat) (junk : List (RtUnit N)) :
    ∃ s' adverts, s.sendAdvPktRegular now junk = .ok (s', adverts) ∧ s'.Tidy n ∧
      (∀ advert ∈ adverts, Sent n s advert) ∧
      ∀ dst, s'.routeTo dst = s.routeTo dst ∨ s'.routeTo dst = none := by
  have htidy := h.renew now
  have hroute := h.renew_routeTo now
  obtain ⟨num, time, rest, hrows⟩ := h.own
  have hsent : ∀ advert, Sent n (s.renew now) advert → Sent n s advert := by
    intro advert hadvert
    refine ⟨hadvert.from_, hadvert.nodup, fun u hu hmetric => ?_⟩
    rw [← hroute]
    exact hadvert.routes u hu hmetric
  obtain ⟨s', adverts, hcheck, hs', hadverts, hlose⟩ :=
    (htidy.going (h.renew_rows hrows now) now).selfCheck
      (by rw [age_self now rfl]; exact Nat.zero_le _) junk
  refine ⟨s', adverts ++ [⟨s.mip, (s.renew now).rows⟩], ?_, hs', ?_, fun dst => hroute dst ▸ hlose dst⟩
  · unfold DSDVd.sendAdvPktRegular
    rw [if_neg (by rw [hrows]; exact List.cons_ne_nil _ _), hcheck]
    rfl
  · intro advert hadvert
    rcases List.mem_append.1 hadvert with hadvert | hadvert
    · exact hsent advert (hadverts advert hadvert)
    · obtain rfl := List.mem_singleton.1 hadvert
      rw [h.mip]
      exact hsent _ (Sent.of_rows htidy.mip htidy.nodup htidy.nodup fun u hu => ⟨u, hu, rfl, Or.inr rfl⟩)

/-! ## Forwarding -/

/-- The row at the place of a destination. -/
theorem getElem?_getIndex {rows : List (RtUnit N)} {i : Nat} (h : getIndex rows dst = some i) :
    ∃ b, rows[i]? = some b ∧ rows.find? (fun r => r.dst = dst) = some b := by
  obtain ⟨pre, b, post, rfl, rfl, hb, hpre⟩ := getIndex_some h
  refine ⟨b, by simp, ?_⟩
  rw [List.find?_append, List.find?_eq_none.2 (fun r hr => by simpa using hpre r hr), Option.none_or,
    List.find?_cons_of_pos (by simpa using hb)]

/-- A destination that is not in the table. -/
theorem routing_none {gateway : N} (h : getIndex s.rows dst = none) :
    s.routing dst gateway = .error .negative := by
  rw [routing, h]

/-- The node itself. -/
theorem routing_zero {gateway : N} (h : getIndex s.rows dst = some 0) :
    s.routing dst gateway = .ok (-1, gateway) := by
  rw [routing, h]
  rfl

/-- Another destination: its next hop, unless it cannot be reached. -/
theorem routing_succ {gateway : N} {i : Nat} {b : RtUnit N} (h : getIndex s.rows dst = some (i + 1))
    (hat : s.rows[i + 1]? = some b) :
    s.routing dst gateway = if b.metric = BIG then .ok (-1, gateway) else .ok (1, b.nextHop) := by
  rw [routing, h]
  simp only [hat]

/-- **The lookup** goes right exactly if the table has an entry for the destination, and the test of its
    metric tells whether it is valid. -/
theorem forwards_iff (s : DSDVd N) (dst : N) (hmip : dst ≠ s.mip) : s.Forwards dst ↔ s.Listed dst := by
  unfold Forwards Listed
  cases hindex : getIndex s.rows dst with
  | none =>
    constructor
    · intro h
      have hfault := h dst
      rw [routing_none hindex] at hfault
      cases hfault
    · rintro ⟨index, r, hsome, -⟩
      cases hsome
  | some index =>
    obtain ⟨b, hat, hfind⟩ := getElem?_getIndex hindex
    have hroute : s.routeTo dst = if b.metric < BIG then some (b.nextHop, (b.num, b.metric)) else none := by
      rw [routeTo, if_neg hmip, hfind]
      rfl
    have hlisted : (∃ i r, some index = some i ∧ s.rows[i]? = some r ∧
        if i = 0 then BIG ≤ r.metric else r.metric ≤ BIG) ↔
          if index = 0 then BIG ≤ b.metric else b.metric ≤ BIG := by
      constructor
      · rintro ⟨i, r, hi, hr, h⟩
        obtain rfl := Option.some.inj hi
        rw [hat] at hr
        obtain rfl := Option.some.inj hr
        exact h
      · intro h
        exact ⟨index, b, rfl, hat, h⟩
    rw [hlisted, hroute]
    cases index with
    | zero =>
      simp only [routing_zero hindex]
      have : Nonempty N := ⟨dst⟩
      by_cases hvalid : b.metric < BIG
      · simp [hvalid, Int.not_le.2 hvalid]
      · simp [hvalid, Int.not_lt.1 hvalid]
    | succ index =>
      simp only [routing_succ hindex hat]
      have : Nonempty N := ⟨dst⟩
      rcases Int.lt_trichotomy b.metric BIG with hvalid | hbig | hover
      · simp [hvalid, Int.ne_of_lt hvalid, Int.le_of_lt hvalid]
      · simp [hbig]
      · simp [Int.not_le.2 hover, Int.ne_of_gt hover, Int.not_lt.2 (Int.le_of_lt hover)]

/-- A table with its own entry and one neighbour. -/
theorem forwards_iff_neighbour :
    Forwards { (init 0 10 0 : DSDVd (Fin 3)) with
      rows := [ownUnit 0 2 5, { ownUnit 1 2 5 with metric := 1 }] } 1 :=
  (forwards_iff _ 1 (by decide)).2 ⟨1, _, rfl, rfl, by decide⟩

/-- Before any advertisement there is no other entry. -/
theorem absent_reads_in_front : ¬ (init 0 10 0 : DSDVd (Fin 3)).Forwards 1 := by
  intro h
  exact absurd (h 0) (by decide)

end DSDVd

/-! ## Runs -/

namespace Net

open NextHops (Improving)

variable [DecidableEq N]

/-- Each route is the best of those that its node has held, and is shorter or fresher than one that
    its next hop has held. -/
structure Routes (s : Net N) : Prop where
  improving : ∀ dst, Improving Better dst (fun n => (s.node n).routeTo dst) fun n k => k ∈ s.held n dst
  known : ∀ n dst m k, (s.node n).routeTo dst = some (m, k) → k ∈ s.held n dst

/-- The routes in an advertisement are its sender's own or ones that it has held. -/
structure Known (s : Net N) (advert : Advert N) : Prop where
  nodup : (advert.units.map (·.dst)).Nodup
  routes : ∀ u ∈ advert.units, u.metric < BIG →
    u.dst = advert.from_ ∨ (u.num, u.metric) ∈ s.held advert.from_ u.dst

/-- What holds in every state of the network. -/
structure Inv (s : Net N) : Prop where
  tidy : ∀ n, (s.node n).Tidy n
  routes : s.Routes
  air : ∀ advert ∈ s.air, s.Known advert

/-- The net once `n` is in the state `t` and has held `held`. -/
def put (s : Net N) (n : N) (t : DSDVd N) (held : N → List (Int × Int)) : Net N :=
  { s with node := Function.update s.node n t, held := Function.update s.held n held }

section Put

variable {s : Net N} {n from_ : N} {now : Nat} {t : DSDVd N} {held : N → List (Int × Int)} {a : RtUnit N}

@[simp] theorem put_node_self : (s.put n t held).node n = t := Function.update_self ..

@[simp] theorem put_held_self : (s.put n t held).held n = held := Function.update_self ..

theorem put_node_of_ne {m : N} (h : m ≠ n) : (s.put n t held).node m = s.node m := Function.update_of_ne h ..

theorem put_held_of_ne {m : N} (h : m ≠ n) : (s.put n t held).held m = s.held m := Function.update_of_ne h ..

/-- What is remembered: the route of now, and those of before. -/
theorem mem_remember {dst : N} {k : Int × Int} :
    k ∈ remember t held dst ↔ (∃ m, t.routeTo dst = some (m, k)) ∨ k ∈ held dst := by
  unfold remember
  rw [List.mem_append]
  refine or_congr ?_ Iff.rfl
  cases t.routeTo dst with
  | none => simp
  | some r =>
    obtain ⟨m, j⟩ := r
    simp [eq_comm]

/-- A node loses routes. -/
theorem Routes.lose (h : (s.put n t held).Routes) {t' : DSDVd N}
    (hlose : ∀ dst, t'.routeTo dst = t.routeTo dst ∨ t'.routeTo dst = none) :
    (s.put n t' held).Routes := by
  have hall : ∀ dst m, ((s.put n t' held).node m).routeTo dst = ((s.put n t held).node m).routeTo dst ∨
      ((s.put n t' held).node m).routeTo dst = none := by
    intro dst m
    by_cases hm : m = n
    · subst hm
      rw [put_node_self, put_node_self]
      exact hlose dst
    · rw [put_node_of_ne hm, put_node_of_ne hm]
      exact Or.inl rfl
  refine ⟨fun dst => (h.improving dst).lose (hall dst), ?_⟩
  intro m dst l k hk
  rcases hall dst m with hsame | hnone
  · rw [hsame] at hk
    exact h.known m dst l k hk
  · rw [hnone] at hk
    cases hk

/-- What a node has held grows. -/
theorem Routes.remember (h : (s.put n t held).Routes) : (s.put n t (remember t held)).Routes := by
  have hsame : ∀ dst m k, k ∈ (s.put n t (Net.remember t held)).held m dst ↔ k ∈ (s.put n t held).held m dst := by
    intro dst m k
    by_cases hm : m = n
    · subst hm
      rw [put_held_self, put_held_self, mem_remember]
      refine ⟨?_, Or.inr⟩
      rintro (⟨l, hl⟩ | hk)
      · have hknown := h.known m dst l k (by rwa [put_node_self])
        rwa [put_held_self] at hknown
      · exact hk
    · rw [put_held_of_ne hm, put_held_of_ne hm]
  exact ⟨fun dst => (h.improving dst).congr (fun _ => rfl) (hsame dst),
    fun m dst l k hk => (hsame dst m k).2 (h.known m dst l k hk)⟩

/-- A node takes a route that is better than all it has held from the next hop. -/
theorem Routes.take (h : (s.put n t held).Routes) {t' : DSDVd N} {dst : N} {k : Int × Int} (hn : n ≠ dst)
    (hother : ∀ d, d ≠ dst → t'.routeTo d = t.routeTo d) (hthis : t'.routeTo dst = some (from_, k))
    (hbest : ∀ j ∈ held dst, Better k j)
    (hhop : from_ = dst ∨ ∃ j ∈ (s.put n t held).held from_ dst, Better j k) :
    (s.put n t' (Net.remember t' held)).Routes := by
  have hheld : ∀ d m j, j ∈ (s.put n t' (Net.remember t' held)).held m d ↔
      j ∈ (s.put n t held).held m d ∨ (d = dst ∧ m = n ∧ j = k) := by
    intro d m j
    by_cases hm : m = n
    · subst hm
      rw [put_held_self, put_held_self, mem_remember]
      by_cases hd : d = dst
      · subst hd
        rw [hthis]
        constructor
        · rintro (⟨l, hl⟩ | hj)
          · exact Or.inr ⟨rfl, rfl, (Prod.mk.inj (Option.some.inj hl)).2.symm⟩
          · exact Or.inl hj
        · rintro (hj | ⟨-, -, rfl⟩)
          · exact Or.inr hj
          · exact Or.inl ⟨from_, rfl⟩
      · rw [hother d hd]
        constructor
        · rintro (⟨l, hl⟩ | hj)
          · have hknown := h.known m d l j (by rwa [put_node_self])
            rw [put_held_self] at hknown
            exact Or.inl hknown
          · exact Or.inl hj
        · rintro (hj | ⟨hd', -⟩)
          · exact Or.inr hj
          · exact absurd hd' hd
    · rw [put_held_of_ne hm, put_held_of_ne hm]
      exact ⟨Or.inl, fun hj => hj.resolve_right fun hj => hm hj.2.1⟩
  have hroute : ∀ d m, d ≠ dst ∨ m ≠ n →
      ((s.put n t' (Net.remember t' held)).node m).routeTo d = ((s.put n t held).node m).routeTo d := by
    intro d m hdm
    by_cases hm : m = n
    · subst hm
      rw [put_node_self, put_node_self]
      exact hother d (hdm.resolve_right fun hm => hm rfl)
    · rw [put_node_of_ne hm, put_node_of_ne hm]
  constructor
  · intro d
    by_cases hd : d = dst
    · subst hd
      refine ((h.improving d).take hn (k := k) (by simpa using hbest) hhop).congr ?_ ?_
      · intro m
        by_cases hm : m = n
        · subst hm
          rw [put_node_self, hthis, Function.update_self]
        · rw [hroute d m (Or.inr hm), Function.update_of_ne hm]
      · intro m j
        rw [hheld d m j]
        simp
    · refine (h.improving d).congr (fun m => hroute d m (Or.inl hd)) ?_
      intro m j
      rw [hheld d m j]
      exact or_iff_left fun hj => hd hj.1
  · intro m d l j hj
    rw [hheld d m j]
    by_cases hdm : d ≠ dst ∨ m ≠ n
    · rw [hroute d m hdm] at hj
      exact Or.inl (h.known m d l j hj)
    · obtain ⟨rfl, rfl⟩ : d = dst ∧ m = n := by tauto
      rw [put_node_self, hthis] at hj
      exact Or.inr ⟨rfl, rfl, (Prod.mk.inj (Option.some.inj hj)).2.symm⟩

/-- An entry of an advertisement that is not stale. -/
theorem Routes.update (h : (s.put n t held).Routes) (now : Nat) (from_ : N) (hmip : t.mip = n)
    (hfresh : Takes t a → ∀ k ∈ held a.dst, Better (a.num, a.metric + 1) k)
    (hfrom : a.metric < BIG → a.dst = from_ ∨ (a.num, a.metric) ∈ (s.put n t held).held from_ a.dst) :
    (s.put n (t.update now from_ a) (Net.remember (t.update now from_ a) held)).Routes := by
  rcases DSDVd.update_routeTo now from_ t a with hlose | ⟨htakes, hother, hthis⟩
  · exact (h.lose hlose).remember
  · refine h.take (hmip ▸ htakes.1.symm) hother hthis (hfresh htakes) ?_
    have hlt : a.metric < BIG := by
      have := htakes.2.2.1
      omega
    refine (hfrom hlt).imp Eq.symm ?_
    intro hk
    exact ⟨_, hk, Or.inr ⟨rfl, Int.lt_succ _⟩⟩

theorem subset_remember (dst : N) : ∀ k ∈ held dst, k ∈ remember t held dst :=
  fun _ hk => mem_remember.2 (Or.inr hk)

/-- Nothing is forgotten over an advertisement. -/
theorem subset_heldAfter (dst : N) (units : List (RtUnit N)) (t : DSDVd N) (held : N → List (Int × Int)) :
    ∀ k ∈ held dst, k ∈ heldAfter now from_ units t held dst := by
  induction units generalizing t held with
  | nil => exact fun _ hk => hk
  | cons a units ih => exact fun k hk => ih _ _ k (subset_remember dst k hk)

/-- A node goes through an advertisement that is not stale. -/
theorem Routes.foldl {units : List (RtUnit N)} (h : (s.put n t held).Routes) (hmip : t.mip = n)
    (hne : from_ ≠ n) (hfresh : Fresh now from_ units t held)
    (hfrom : ∀ a ∈ units, a.metric < BIG → a.dst = from_ ∨ (a.num, a.metric) ∈ s.held from_ a.dst) :
    (s.put n (units.foldl (DSDVd.update now from_) t) (heldAfter now from_ units t held)).Routes := by
  induction units generalizing t held with
  | nil => exact h
  | cons a units ih =>
    obtain ⟨hfirst, hrest⟩ := hfresh
    have hstep := h.update now from_ hmip hfirst (by
      rw [put_held_of_ne hne]
      exact hfrom a List.mem_cons_self)
    exact ih hstep ((DSDVd.update_mip now from_ t a).trans hmip) hrest
      fun b hb => hfrom b (List.mem_cons_of_mem _ hb)

end Put

/-- A node that stays as it is. -/
theorem put_self (s : Net N) (n : N) : s.put n (s.node n) (s.held n) = s := by
  unfold put
  rw [Function.update_eq_self, Function.update_eq_self]

/-- What a node with routes that it has held sends is known. -/
theorem Routes.known_of_sent {s : Net N} {n : N} (h : s.Routes) {advert : Advert N}
    (hsent : (s.node n).Sent n advert) : s.Known advert where
  nodup := hsent.nodup
  routes u hu hmetric := by
    rw [hsent.from_]
    refine (hsent.routes u hu hmetric).imp id ?_
    rintro ⟨m, hm⟩
    exact h.known n _ m _ hm

/-- A node is done with a step, in which it has lost routes since `t` and sent some of these. -/
theorem Inv.put {s : Net N} (h : s.Inv) {n : N} {t t' : DSDVd N} {held : N → List (Int × Int)}
    {adverts : List (Advert N)} (hheld : ∀ dst, ∀ k ∈ s.held n dst, k ∈ held dst)
    (hroutes : (s.put n t held).Routes) (htidy : t'.Tidy n) (hsent : ∀ advert ∈ adverts, t.Sent n advert)
    (hlose : ∀ dst, t'.routeTo dst = t.routeTo dst ∨ t'.routeTo dst = none) :
    Inv { s.put n t' held with air := s.air ++ adverts } := by
  have hgrow : ∀ m dst, ∀ k ∈ s.held m dst, k ∈ (s.put n t held).held m dst := by
    intro m dst k hk
    by_cases hm : m = n
    · subst hm
      rw [put_held_self]
      exact hheld dst k hk
    · rwa [put_held_of_ne hm]
  refine ⟨?_, ⟨(hroutes.lose hlose).improving, (hroutes.lose hlose).known⟩, ?_⟩
  · intro m
    by_cases hm : m = n
    · subst hm
      show ((s.put m t' held).node m).Tidy m
      rwa [put_node_self]
    · show ((s.put n t' held).node m).Tidy m
      rw [put_node_of_ne hm]
      exact h.tidy m
  · intro advert hadvert
    rcases List.mem_append.1 hadvert with hadvert | hadvert
    · obtain ⟨hnodup, hunits⟩ := h.air advert hadvert
      exact ⟨hnodup, fun u hu hmetric => (hunits u hu hmetric).imp id (hgrow _ _ _)⟩
    · obtain ⟨hnodup, hunits⟩ := hroutes.known_of_sent (n := n) (by
        rw [put_node_self]
        exact hsent advert hadvert)
      exact ⟨hnodup, hunits⟩

/-- Nothing has been sent. -/
theorem init_inv (expire_time_out_ now : N → Nat) : (init expire_time_out_ now).Inv := by
  have hroute : ∀ n dst, ((init expire_time_out_ now).node n).routeTo dst = none := by
    intro n dst
    have hmip : ((init expire_time_out_ now).node n).mip = n := rfl
    rw [DSDVd.routeTo_eq [DSDVd.ownUnit n 0 (now n)] rfl hmip]
    by_cases hdst : dst = n
    · rw [if_pos hdst]
    · have hown : (DSDVd.ownUnit n 0 (now n)).dst ≠ dst := Ne.symm hdst
      rw [if_neg hdst, List.find?_cons_of_neg (by simpa using hown)]
      rfl
  refine ⟨fun n => DSDVd.init_tidy n _ _, ⟨?_, ?_⟩, fun _ h => absurd h List.not_mem_nil⟩
  · intro dst
    refine ⟨hroute dst dst, ?_, ?_⟩ <;>
    · intro n m k hk
      rw [hroute] at hk
      cases hk
  · intro n dst m k hk
    rw [hroute] at hk
    cases hk

/-- **The invariant.** A sane step goes through and keeps it. -/
theorem step_inv {s : Net N} (h : s.Inv) {a : NetAction N} (hsane : s.Sane a) :
    ∃ s', s.step a = .ok s' ∧ s'.Inv := by
  cases a with
  | regular n now junk =>
    obtain ⟨t, adverts, hsend, htidy, hsent, hlose⟩ := (h.tidy n).sendAdvPktRegular now junk
    refine ⟨{ s.put n t (s.held n) with air := s.air ++ adverts }, ?_, ?_⟩
    · unfold step
      simp only [hsend]
      unfold Net.put
      rw [Function.update_eq_self]
    · exact h.put (fun _ _ hk => hk) (by rw [put_self]; exact h.routes) htidy hsent hlose
  | deliver n i now junk =>
    cases hair : s.air[i]? with
    | none => exact ⟨s, by simp only [step, hair], h⟩
    | some advert =>
      by_cases hfrom : advert.from_ = n
      · exact ⟨s, by simp only [step, hair, if_pos hfrom], h⟩
      · obtain ⟨hfresh, hage⟩ := hsane advert hair hfrom
        obtain ⟨hnodup, hunits⟩ := h.air advert (List.mem_of_getElem? hair)
        obtain ⟨num, time, rest, hrows⟩ := (h.tidy n).own
        have hroutes := Routes.foldl (s := s) (n := n) (by rw [put_self]; exact h.routes)
          (h.tidy n).mip hfrom hfresh hunits
        obtain ⟨done, hgoing⟩ := ((h.tidy n).going hrows now).foldl advert.from_
          (fun _ _ => List.not_mem_nil) hnodup
        have hyoung : DSDVd.age now (DSDVd.ownUnit n num time) ≤
            (advert.units.foldl (DSDVd.update now advert.from_) (s.node n)).expire_time_out_ := by
          rw [DSDVd.foldl_update_timeout]
          exact hage _ (by rw [hrows]; rfl)
        obtain ⟨t, adverts, hcheck, htidy, hsent, hlose⟩ := hgoing.selfCheck hyoung junk
        refine ⟨_, ?_, h.put (fun dst => subset_heldAfter dst advert.units _ _) hroutes htidy hsent hlose⟩
        simp only [step, hair, if_neg hfrom, DSDVd.recvAdvPkt, hcheck]
        rfl

theorem Inv.loopFree {s : Net N} (h : s.Inv) : s.LoopFree :=
  fun dst n => (h.routes.improving dst).acyclic n

/-- As long as no node takes a route that is stale for it, the next hops form no cycle, whatever is lost
    or late. -/
theorem run_loopFree (expire_time_out_ now : N → Nat) (actions : List (NetAction N))
    (h : Run.Along step Sane (init expire_time_out_ now) actions) :
    Run.Always step LoopFree (init expire_time_out_ now) actions ∧
      ∃ s, Run.exec step (init expire_time_out_ now) actions = .ok s := by
  refine ⟨?_, Run.exec_ok_of_along (I := Inv) (fun s a hs hsane => step_inv hs hsane) (init_inv _ _) h⟩
  refine (Run.Always.of_along (I := Inv) ?_ (init_inv _ _) h).mono fun s hs => hs.loopFree
  intro s a s' hs hsane hstep
  obtain ⟨t, ht, hinv⟩ := step_inv hs hsane
  rw [hstep] at ht
  obtain rfl := Except.ok.inj ht
  exact hinv

/-- A route goes over two hops, breaks, and is reported dead. -/
theorem run_loopFree_two_hops :
    let actions : List (NetAction (Fin 3)) :=
      [.regular 2 0 [], .deliver 0 0 1 [], .regular 0 2 [], .deliver 1 1 3 [], .regular 1 5 [],
        .regular 0 12 [], .deliver 1 3 13 []]
    Run.Always step LoopFree (init (fun _ => 10) fun _ => 0) actions ∧
      ∃ s, Run.exec step (init (fun _ => 10) fun _ => 0) actions = .ok s :=
  run_loopFree _ _ _ (by decide +kernel)

/-- The node 0 has reported its route to 2 dead and dropped it. Then the node 1 gets an advertisement
    from before that, takes the route over 0, and advertises it to 0, which takes it as a new one. -/
theorem dropped_route_loops :
    ∃ actions : List (NetAction (Fin 3)),
      ¬ Run.Always step LoopFree (init (fun _ => 10) fun _ => 0) actions := by
  have hroutes : ∃ s, Run.exec step (init (fun _ => 10) fun _ => 0)
      [.regular (2 : Fin 3) 0 [], .deliver 0 0 1 [], .regular 0 2 [], .regular 0 12 [], .regular 1 15 [],
        .deliver 1 1 20 [], .regular 1 21 [], .regular 0 23 [], .deliver 0 5 24 []] = .ok s ∧
      (s.node 0).routeTo 2 = some (1, (2, 3)) ∧ (s.node 1).routeTo 2 = some (0, (2, 2)) :=
    ⟨_, rfl, by decide +kernel, by decide +kernel⟩
  obtain ⟨s, hs, hto, hback⟩ := hroutes
  refine ⟨_, fun h => h.exec hs 2 0 ?_⟩
  exact Relation.TransGen.head ⟨_, hto⟩ (Relation.TransGen.single ⟨_, hback⟩)

end Net

end Dsdv
